/-!
# Blank characters, trimming and words

Blank characters are those with the Unicode property `White_Space`. A text is trimmed of them at
either end, and cut into words at runs of them.
-/

namespace Gazette.Text

/-! ### Blank characters -/

/-- The characters with the property `White_Space`. -/
def isBlank (c : Char) : Bool :=
  let n := c.toNat
  (0x09 ≤ n && n ≤ 0x0D) || n == 0x20 || n == 0x85 || n == 0xA0 || n == 0x1680 ||
    (0x2000 ≤ n && n ≤ 0x200A) || n == 0x2028 || n == 0x2029 || n == 0x202F || n == 0x205F ||
    n == 0x3000

/-! ### Trimming -/

/-- The text without its longest tail of characters that satisfy `p`. -/
def dropTail (p : Char → Bool) (s : List Char) : List Char :=
  (s.reverse.dropWhile p).reverse

theorem dropTail_append_eq (p : Char → Bool) (s : List Char) :
    ∃ t, s = dropTail p s ++ t ∧ ∀ c ∈ t, p c = true := by
  refine ⟨(s.reverse.takeWhile p).reverse, ?_, ?_⟩
  · rw [dropTail, ← List.reverse_append, List.takeWhile_append_dropWhile, List.reverse_reverse]
  · intro c hc
    rw [List.mem_reverse] at hc
    exact List.all_eq_true.mp List.all_takeWhile c hc

def trimStart (s : List Char) : List Char := s.dropWhile isBlank

def trimEnd (s : List Char) : List Char := dropTail isBlank s

def trim (s : List Char) : List Char := trimEnd (trimStart s)

def trimmed (s : String) : String := String.ofList (trim s.toList)

/-! ### Words -/

def words (s : List Char) : List (List Char) :=
  go [] s
where
  /-- The words of what is left, when `word` (reversed) is being read. -/
  go (word : List Char) : List Char → List (List Char)
    | [] => if word.isEmpty then [] else [word.reverse]
    | c :: rest =>
      if isBlank c then (if word.isEmpty then go [] rest else word.reverse :: go [] rest)
      else go (c :: word) rest

end Gazette.Text
