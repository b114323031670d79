import TextureGraph.Catalog.Channel
import TextureGraph.Catalog.Source
import TextureGraph.Proofs.Inquiry.Basic

/-!
# Questions of sources and channels

Sources have no inputs and ask nothing.  A channel passes on to its input whatever it is asked.
-/

namespace TextureGraph

variable {α : Type} [Arith α]

instance : Inquiring (Source α) α where
  inquiry m operation output q :=
    pure ((TextureModule.answers m (.unbound m.signature)).result operation output q)
  run_inquiry m operation output q inputs := by cases operation <;> rfl
  asks_inquiry m operation output q kind _ _ := Inquiry.asks_pure _

namespace Channel

/-- Asks the input for what the output is asked for. -/
def inquiry (q : Query α) : (operation : Operation) → Inquiry α (operation.Result α)
  | .value => .value 0 q
  | .color => .color 0 q
  | .error => .error 0 q
  | .gradient => .gradient 0 q

theorem inputKind?_signature (c : Channel α) : c.signature.inputKind? 0 = some c.unbound.kind :=
  rfl

/-- The only output has the kind of the input. -/
theorem kind_of_outputKind? (c : Channel α) {output : Nat} {kind : SocketKind}
    (h : c.signature.outputKind? output = some kind) : kind = c.unbound.kind := by
  cases output with
  | zero => exact (Option.some.inj h).symm
  | succ n => cases h

instance : Inquiring (Channel α) α where
  inquiry _ operation _ q := inquiry q operation
  run_inquiry c operation output q inputs := by cases operation <;> rfl
  asks_inquiry c operation output q kind hkind hsuits := by
    obtain rfl := kind_of_outputKind? c hkind
    have hinput := inputKind?_signature c
    cases operation with
    | value => exact (Inquiry.asks_value 0 q).mpr ⟨_, hinput, hsuits⟩
    | color => exact (Inquiry.asks_color 0 q).mpr (hinput.trans (congrArg some hsuits))
    | error => exact (Inquiry.asks_error 0 q).mpr ⟨_, hinput⟩
    | gradient => exact (Inquiry.asks_gradient 0 q).mpr ⟨_, hinput, hsuits⟩

end Channel

end TextureGraph
