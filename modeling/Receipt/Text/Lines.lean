import Receipt.Text.Character

/-!
# Lines and words of a text

`splitLines` cuts a text at its line ends, a carriage return followed by a line feed counting as
one, and gives no line for what follows the last line end. `splitFeeds` cuts at line feeds only and
keeps every piece. `words` are the longest runs without blanks.
-/

namespace Receipt.Text

open Receipt.Character (isBlank isLineEnd)

/-- Removes the blanks at both ends. -/
def strip (text : List Char) : List Char :=
  ((text.dropWhile isBlank).reverse.dropWhile isBlank).reverse

/-- Whether a text has no character that prints. -/
def isBlankText (text : List Char) : Bool := text.all isBlank

/-- Puts a character in front of the first piece. -/
def consFirst (c : Char) : List (List Char) → List (List Char)
  | [] => [[c]]
  | piece :: pieces => (c :: piece) :: pieces

/-- The lines of a text, each without its line end. -/
def splitLines : List Char → List (List Char)
  | [] => []
  | '\r' :: '\n' :: rest => [] :: splitLines rest
  | c :: rest => if isLineEnd c then [] :: splitLines rest else consFirst c (splitLines rest)

/-- The pieces between line feeds; there is always at least one. -/
def splitFeeds : List Char → List (List Char)
  | [] => [[]]
  | '\n' :: rest => [] :: splitFeeds rest
  | c :: rest => consFirst c (splitFeeds rest)

/-- Collects words: `word` holds the characters of the word being read, in order. -/
def wordsFrom (word : List Char) : List Char → List (List Char)
  | [] => if word.isEmpty then [] else [word]
  | c :: rest =>
    if isBlank c then
      if word.isEmpty then wordsFrom [] rest else word :: wordsFrom [] rest
    else wordsFrom (word ++ [c]) rest

/-- The words of a text, in order. -/
def words (text : List Char) : List (List Char) := wordsFrom [] text

/-- Joins texts with one space between each two. -/
def joinSpaced : List (List Char) → List Char
  | [] => []
  | [text] => text
  | text :: texts => text ++ ' ' :: joinSpaced texts

end Receipt.Text
