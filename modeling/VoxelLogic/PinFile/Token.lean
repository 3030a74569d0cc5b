import VoxelLogic.Text.Blank

/-!
# Tokens of a pin file

A line of a pin file is made of four punctuation marks and of words.  A word is a run of ASCII
letters, ASCII digits and underscores that is as long as possible.  Blank characters separate
tokens and mean nothing else; every other character is refused.
-/

namespace VoxelLogic.PinFile

/-- A token of a line. -/
inductive Token where
  | leftParen
  | rightParen
  | comma
  | equals
  | word (text : String)
  deriving DecidableEq, Repr

namespace Token

/-- The written form of a token. -/
def text : Token → String
  | leftParen => "("
  | rightParen => ")"
  | comma => ","
  | equals => "="
  | word text => text

/-- The punctuation mark that a character is, if it is one. -/
def ofMark? (c : Char) : Option Token :=
  if c = '(' then some leftParen
  else if c = ')' then some rightParen
  else if c = ',' then some comma
  else if c = '=' then some equals
  else none

/-- The characters of words. -/
def isWordCharacter (c : Char) : Bool := c.isAlphanum || c == '_'

/-- The tokens of a line, or the first character that belongs to none. -/
def scan : List Char → Except Char (List Token)
  | [] => .ok []
  | c :: cs =>
    if Text.isBlank c then scan cs
    else
      match ofMark? c with
      | some mark => (scan cs).map (mark :: ·)
      | none =>
        if isWordCharacter c then
          (scan (cs.dropWhile isWordCharacter)).map
            (word (String.ofList (c :: cs.takeWhile isWordCharacter)) :: ·)
        else .error c
termination_by line => line.length
decreasing_by
  · exact Nat.lt_succ_self _
  · exact Nat.lt_succ_self _
  · exact Nat.lt_succ_of_le (List.dropWhile_sublist _).length_le

@[simp] theorem scan_nil : scan [] = .ok [] := by
  rw [scan]

end Token

end VoxelLogic.PinFile
