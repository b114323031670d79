import TextureGraph.Proofs.Number.ExactOrder
import TextureGraph.Proofs.Graph.Consistency
import TextureGraph.Proofs.Graph.Evaluation

/-!
# Evaluations in exact arithmetic

In exact arithmetic every blur that is not negative is accepted and every error is finite, so that the
evaluations pass on what the module answers.
-/

namespace TextureGraph.FrozenGraph

variable {M α : Type} [ExactArith α] [ExactOrder α] {f : FrozenGraph M α}

theorem reportedError_eq_max (error : α) : reportedError error = max error 0 := by
  rw [reportedError, if_pos (ExactOrder.isFinite_eq error), ExactOrder.max_eq, ExactArith.zero_eq]

variable [TextureModule M α]

/-- An output that carries numbers or truth values can be asked for with every blur that is not
negative. -/
theorem evaluate_of_nonneg {t : Target} {e : Entry M α} {kind : SocketKind} {q : Query α}
    (hblur : 0 ≤ q.blur) (he : f.graph.entry? t.module = some e)
    (hkind : e.signature.outputKind? t.output = some kind) (hnumber : kind ≠ .color) :
    f.evaluateScalar t q = .ok ((f.answers e).value t.output q) ∧
      f.estimateError t q = .ok (max ((f.answers e).error t.output q) 0) ∧
      f.evaluateGradient t q = .ok ((f.answers e).gradient t.output q) := by
  have htarget : f.target t q.blur = .ok (e, kind) := by
    refine target_eq_ok ?_ he hkind
    rw [ExactOrder.isFinite_eq, ExactArith.zero_eq, decide_eq_false hblur.not_gt]
    exact Bool.false_ne_true
  rw [evaluateScalar, estimateError, evaluateGradient, htarget, ← reportedError_eq_max]
  exact ⟨if_neg hnumber, rfl, if_neg hnumber⟩

/-- In a graph that was edited, what can be asked for are the answers of the module to what is bound to
it. -/
theorem evaluate_module (hg : f.graph.Consistent) (h : f.graph.freeze = .ok f) {t : Target}
    {e : Entry M α} (he : f.graph.entry? t.module = some e) {kind : SocketKind}
    (hkind : (TextureModule.signature e.module : Signature α).outputKind? t.output = some kind)
    (hnumber : kind ≠ .color) {q : Query α} (hblur : 0 ≤ q.blur) :
    let answers := TextureModule.answers e.module (f.graph.pull f.answers e)
    f.evaluateScalar t q = .ok (answers.value t.output q) ∧
      f.estimateError t q = .ok (max (answers.error t.output q) 0) ∧
      f.evaluateGradient t q = .ok (answers.gradient t.output q) := by
  have houtput : e.signature.outputKind? t.output = some kind :=
    ((hg.entries t.module e he).outputKind?_eq t.output).symm.trans hkind
  dsimp only
  rw [← answers_eq h he]
  exact evaluate_of_nonneg hblur he houtput hnumber

end TextureGraph.FrozenGraph
