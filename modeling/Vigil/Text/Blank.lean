/-! The characters with the Unicode property White_Space, and trimming by them. -/
namespace Vigil

/-- White_Space holds of exactly these code points. -/
def isBlank (c : Char) : Bool :=
  let n := c.toNat
  (9 ≤ n && n ≤ 13) || n == 0x20 || n == 0x85 || n == 0xA0 || n == 0x1680 ||
    (0x2000 ≤ n && n ≤ 0x200A) || n == 0x2028 || n == 0x2029 || n == 0x202F ||
    n == 0x205F || n == 0x3000

namespace Text

def trimStart (s : List Char) : List Char := s.dropWhile isBlank

def trimEnd (s : List Char) : List Char := (s.reverse.dropWhile isBlank).reverse

def trim (s : List Char) : List Char := trimEnd (trimStart s)

def trimmed (s : String) : String := String.ofList (trim s.toList)

/-- A text is blank when nothing but White_Space is in it. -/
def isBlank (s : String) : Bool := s.toList.all Vigil.isBlank

theorem trim_eq_nil_of_all {s : List Char} (h : s.all Vigil.isBlank) : trim s = [] := by
  have : trimStart s = [] := by
    unfold trimStart
    induction s with
    | nil => rfl
    | cons c r ih =>
      simp only [List.all_cons, Bool.and_eq_true] at h
      simp [List.dropWhile, h.1, ih h.2]
  simp [trim, this, trimEnd]

end Text

end Vigil
