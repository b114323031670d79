import TextureGraph.Socket.Signature
import Mathlib.Data.List.Basic

/-!
# Kinds of the sockets in a signature

* `Signature.kinds_eq_of_beq`: signatures that compare as equal have sockets of the same kinds.
* `Signature.inputKind?_eq`, `Signature.outputKind?_eq`: the kind of a socket is read off the list of
  kinds.
-/

namespace TextureGraph

variable {α : Type}

/-- A kind that feeds numbers or truth values is one of them. -/
theorem SocketKind.ne_color_of_feeds {output input : SocketKind} (h : output.feeds input = true)
    (hinput : input ≠ .color) : output ≠ .color := by
  rintro rfl
  cases input with
  | color => exact hinput rfl
  | scalar | boolean => cases h

theorem SocketKind.eq_of_beq {a b : SocketKind} (h : (a == b) = true) : a = b := by
  cases a <;> cases b <;> first | rfl | cases h

/-- Sockets that compare as equal, one by one, have the same kinds, whatever numbers compare as
equal in their fallbacks. -/
theorem Socket.kinds_eq_of_beq [BEq α] {l l' : List (Socket α)} (h : (l == l') = true) :
    l.map Socket.kind = l'.map Socket.kind := by
  induction l generalizing l' with
  | nil =>
    cases l' with
    | nil => rfl
    | cons p' l' => cases h
  | cons p l ih =>
    cases l' with
    | nil => cases h
    | cons p' l' =>
      rw [List.cons_beq_cons, Bool.and_eq_true] at h
      obtain ⟨hhead, htail⟩ := h
      have hkind : p.kind = p'.kind := by
        simp only [BEq.beq, instBEqSocket.beq, Bool.and_eq_true] at hhead
        exact SocketKind.eq_of_beq hhead.2.2.2.1
      rw [List.map_cons, List.map_cons, hkind, ih htail]

/-- Sockets that compare as equal have fallbacks that compare as equal. -/
theorem Socket.fallback_beq [BEq α] {p p' : Socket α} (h : (p == p') = true) :
    (p.fallback == p'.fallback) = true := by
  simp only [BEq.beq, instBEqSocket.beq, Bool.and_eq_true] at h ⊢
  exact h.2.2.2.2

namespace Signature

/-- Signatures that compare as equal have names and sockets that do. -/
theorem beq_parts [BEq α] {s t : Signature α} (h : (s == t) = true) :
    (s.name == t.name) = true ∧ (s.inputs == t.inputs) = true ∧ (s.outputs == t.outputs) = true := by
  simp only [BEq.beq, instBEqSignature.beq, Bool.and_eq_true] at h ⊢
  exact ⟨h.2.1, h.2.2.2.1, h.2.2.2.2⟩

theorem kinds_eq_of_beq [BEq α] {s t : Signature α} (h : (s == t) = true) :
    s.inputs.map Socket.kind = t.inputs.map Socket.kind ∧
      s.outputs.map Socket.kind = t.outputs.map Socket.kind := by
  obtain ⟨-, hinputs, houtputs⟩ := beq_parts h
  exact ⟨Socket.kinds_eq_of_beq hinputs, Socket.kinds_eq_of_beq houtputs⟩

theorem inputKind?_eq {s : Signature α} {kinds : List SocketKind}
    (h : s.inputs.map Socket.kind = kinds) (input : Nat) : s.inputKind? input = kinds[input]? := by
  rw [inputKind?, ← h, List.getElem?_map]

theorem outputKind?_eq {s : Signature α} {kinds : List SocketKind}
    (h : s.outputs.map Socket.kind = kinds) (output : Nat) :
    s.outputKind? output = kinds[output]? := by
  rw [outputKind?, ← h, List.getElem?_map]

theorem lt_length_of_inputKind? {s : Signature α} {input : Nat} {kind : SocketKind}
    (h : s.inputKind? input = some kind) : input < s.inputs.length := by
  obtain ⟨socket, hsocket, -⟩ := Option.map_eq_some_iff.mp h
  exact (List.getElem?_eq_some_iff.mp hsocket).1

theorem lt_of_outputKind? {s : Signature α} {kinds : List SocketKind}
    (h : s.outputs.map Socket.kind = kinds) {output : Nat} {kind : SocketKind}
    (hkind : s.outputKind? output = some kind) : output < kinds.length := by
  rw [outputKind?_eq h] at hkind
  exact (List.getElem?_eq_some_iff.mp hkind).1

end Signature

end TextureGraph
