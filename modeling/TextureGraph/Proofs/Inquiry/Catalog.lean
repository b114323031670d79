import TextureGraph.Catalog.Basic
import TextureGraph.Proofs.Inquiry.Composition
import TextureGraph.Proofs.Inquiry.Formula
import TextureGraph.Proofs.Inquiry.Mapping
import TextureGraph.Proofs.Inquiry.Matching
import TextureGraph.Proofs.Inquiry.Operator
import TextureGraph.Proofs.Inquiry.Shaping
import TextureGraph.Proofs.Inquiry.Source
import TextureGraph.Proofs.Inquiry.Texture

/-!
# Questions of the modules of the catalog

* `inquiry`: the questions behind an operation of any module of the catalog.
* `computes_of_suits`: an operation that suits an output is never answered by falling back to zero.
-/

namespace TextureGraph.Catalog

variable {α : Type} [Arith α]

/-- The questions behind an operation. -/
def inquiry (m : Catalog α) (operation : Operation) (output : Nat) (q : Query α) :
    Inquiry α (operation.Result α) :=
  match m with
  | .source m => Inquiring.inquiry m operation output q
  | .channel m => Inquiring.inquiry m operation output q
  | .operator m => Inquiring.inquiry m operation output q
  | .shaping m => Inquiring.inquiry m operation output q
  | .expression m => Inquiring.inquiry m operation output q
  | .matching m => Inquiring.inquiry m operation output q
  | .composition m => Inquiring.inquiry m operation output q
  | .texture m => Inquiring.inquiry m operation output q
  | .mapping m => Inquiring.inquiry m operation output q

theorem run_inquiry (m : Catalog α) (operation : Operation) (output : Nat) (q : Query α)
    (inputs : Inputs α) :
    (m.inquiry operation output q).run inputs
      = (TextureModule.answers m inputs).result operation output q := by
  cases m with
  | source m | channel m | operator m | shaping m | expression m | matching m | composition m
  | texture m | mapping m =>
    refine (Inquiring.run_inquiry m operation output q inputs).trans ?_
    cases operation <;> rfl

instance : Inquiring (Catalog α) α where
  inquiry := inquiry
  run_inquiry := run_inquiry
  asks_inquiry m operation output q kind hkind hsuits := by
    cases m with
    | source m | channel m | operator m | shaping m | expression m | matching m | composition m
    | texture m | mapping m =>
      exact Inquiring.asks_inquiry m operation output q kind hkind hsuits

/-! ### Fallbacks -/

/-- Whether a module has something to compute when an operation is asked of an output.  Where it has
nothing, it falls back to zero: a map for an output without a form, cells for an output beyond the
third, and a composition that yields colors for a number. -/
def Computes (m : Catalog α) (operation : Operation) (output : Nat) : Prop :=
  match m with
  | .mapping (.transform t) => ∃ form, t.rows[output]? = some form
  | .mapping (.barycentric t) => ∃ form, t.rows[output]? = some form
  | .texture (.cells _) => output ≤ Texture.secondDistanceOutput
  | .composition m => operation = .value → m = .toHsv
  | _ => True

/-- The compositions other than `toHsv` yield colors only. -/
theorem eq_color_of_outputKind? {m : Composition} (hm : m ≠ .toHsv) {output : Nat}
    {kind : SocketKind} (hkind : (m.signature : Signature α).outputKind? output = some kind) :
    kind = .color := by
  have hkinds : (m.signature : Signature α).outputs.map Socket.kind = [.color] := by
    cases m with
    | toHsv => exact absurd rfl hm
    | sum | difference | product | scale | blend | darker | lighter | ofHsv | ofRgb => rfl
  rw [Signature.outputKind?_eq hkinds] at hkind
  exact List.mem_singleton.mp (List.mem_of_getElem? hkind)

theorem computes_of_suits (m : Catalog α) {operation : Operation} {output : Nat}
    {kind : SocketKind} (hkind : m.signature.outputKind? output = some kind)
    (hsuits : operation.Suits kind) : m.Computes operation output := by
  cases m with
  | source | channel | operator | shaping | expression | matching => trivial
  | composition m =>
    rintro rfl
    by_contra hm
    exact hsuits (eq_color_of_outputKind? hm hkind)
  | texture m =>
    cases m with
    | noise | turbulence | wood => trivial
    | cells metric => exact Nat.le_of_lt_succ (Signature.lt_of_outputKind? rfl hkind)
  | mapping m =>
    cases m with
    | transform t =>
      have hlt : output < 3 := Signature.lt_of_outputKind? rfl hkind
      exact ⟨t.rows[output], Vector.getElem?_eq_getElem hlt⟩
    | barycentric t =>
      have hlt : output < 4 := Signature.lt_of_outputKind? rfl hkind
      exact ⟨t.rows[output], Vector.getElem?_eq_getElem hlt⟩

end TextureGraph.Catalog
