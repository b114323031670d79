import TextureGraph.Number.Binary64

/-!
# Laws of binary floating point

Addition commutes: both orders round the same exact sum, undefined values carry no payload, and the
cases without rounding are symmetric (`Binary64.unpacked_add_comm`).
-/

namespace TextureGraph.Binary64

open Float.Model

theorem unpacked_add_comm (spec : Format) (x y : UnpackedFloat) :
    UnpackedFloat.add spec x y = UnpackedFloat.add spec y x := by
  cases x with
  | notANumber => cases y <;> rfl
  | infinity s =>
    cases y with
    | infinity t => cases s <;> cases t <;> rfl
    | notANumber | zero | finite => rfl
  | zero s =>
    cases y with
    | zero t => cases s <;> cases t <;> rfl
    | notANumber | infinity | finite => rfl
  | finite s m e hm =>
    cases y with
    | finite t n f hn =>
      dsimp only [UnpackedFloat.add]
      rw [Int.min_comm, Int.add_comm]
    | notANumber | infinity | zero => rfl

theorem add_comm (x y : Float) : x + y = y + x := by
  change Float.ofModel (x.toModel.add y.toModel) = Float.ofModel (y.toModel.add x.toModel)
  unfold Float.Model.add
  rw [unpacked_add_comm]

instance instCommutative : Std.Commutative (α := Float) (· + ·) :=
  ⟨add_comm⟩

end TextureGraph.Binary64
