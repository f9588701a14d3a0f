/-!
# White space

The characters of the Unicode property `White_Space`, the trimming of a text by them, and its split
into words. The split keeps every character that is not white space, in order.
-/

namespace CommandDeck

/-- The code points of the property `White_Space`. -/
def isBlank (c : Char) : Bool :=
  let n := c.toNat
  (9 ≤ n && n ≤ 13) || n == 32 || n == 0x85 || n == 0xA0 || n == 0x1680 ||
    (0x2000 ≤ n && n ≤ 0x200A) || n == 0x2028 || n == 0x2029 || n == 0x202F || n == 0x205F ||
    n == 0x3000

namespace Text

def trimStart (s : List Char) : List Char := s.dropWhile isBlank

def trimEnd (s : List Char) : List Char := (s.reverse.dropWhile isBlank).reverse

def trim (s : List Char) : List Char := trimEnd (trimStart s)

/-- The maximal runs of characters that are not white space. -/
def words : List Char → List (List Char)
  | [] => []
  | c :: rest =>
    if isBlank c then words rest
    else if rest.head?.all isBlank then [c] :: words rest
    else match words rest with
      | [] => [[c]]
      | word :: more => (c :: word) :: more

/-- The parts of a text between the occurrences of `mark`, empty parts included. -/
def splitAt (mark : Char) : List Char → List (List Char)
  | [] => [[]]
  | c :: rest =>
    if c = mark then [] :: splitAt mark rest
    else match splitAt mark rest with
      | [] => [[c]]
      | part :: more => (c :: part) :: more

/-- What follows `start` in a text that begins with it. -/
def dropStart? : List Char → List Char → Option (List Char)
  | [], s => some s
  | _ :: _, [] => none
  | c :: start, d :: s => if c = d then dropStart? start s else none

/-- What precedes `tail` in a text that ends with it. -/
def dropEnd? (tail s : List Char) : Option (List Char) :=
  (dropStart? tail.reverse s.reverse).map List.reverse

@[simp] theorem words_nil : words [] = [] := rfl

theorem words_blank {c : Char} (h : isBlank c = true) (s : List Char) :
    words (c :: s) = words s := by
  simp [words, h]

end Text

end CommandDeck

namespace CommandDeck.Text

def trimmed (s : String) : String := String.ofList (trim s.toList)

/-- A text of white space only. -/
def isBlankText (s : String) : Bool := s.toList.all isBlank

def wordsOf (s : String) : List String := (words s.toList).map String.ofList

end CommandDeck.Text
