import TextureGraph.Expression.Error

/-!
# From text to tokens

`Token.scan` reads the tokens of an expression from left to right, each as long as its characters
allow, and stops at the first character that starts none.
-/

namespace TextureGraph.Token

/-- The tokens of a text that begins `offset` bytes into the expression. -/
def scan (offset : Nat) : List Char → Except ExpressionError (List Token)
  | [] => .ok []
  | c :: cs =>
    if Text.isBlank c then scan (offset + c.utf8Size) cs
    else if isNumberChar c then
      let word := c :: cs.takeWhile isNumberChar
      match number? word with
      | none => .error (.invalidNumber (String.ofList word))
      | some token =>
        (scan (offset + byteLength word) (cs.dropWhile isNumberChar)).map (token :: ·)
    else if isNameStart c then
      let word := c :: cs.takeWhile isNameChar
      (scan (offset + byteLength word) (cs.dropWhile isNameChar)).map
        (.name (String.ofList (word.map Char.toLower)) :: ·)
    else if symbols.contains c then
      (scan (offset + c.utf8Size) cs).map (.symbol c :: ·)
    else .error (.unexpectedCharacter c offset)
termination_by cs => cs.length
decreasing_by
  all_goals simp only [List.length_cons]
  · omega
  · exact Nat.lt_succ_of_le (List.dropWhile_sublist _).length_le
  · exact Nat.lt_succ_of_le (List.dropWhile_sublist _).length_le
  · omega

end TextureGraph.Token
