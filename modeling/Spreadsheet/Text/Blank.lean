/-!
# Blank characters

The blanks are the characters with the Unicode property White_Space, all 25 of them. The
zero-width space and the byte order mark do not have it. Text is trimmed of blanks at both
ends before it is read as an address, a formula or an input.
-/

namespace Spreadsheet.Text

/-- The Unicode property White_Space. -/
def isBlank (c : Char) : Bool :=
  let n := c.toNat
  (0x9 ≤ n && n ≤ 0xD) || n == 0x20 || n == 0x85 || n == 0xA0 || n == 0x1680 ||
    (0x2000 ≤ n && n ≤ 0x200A) || n == 0x2028 || n == 0x2029 || n == 0x202F || n == 0x205F ||
    n == 0x3000

/-- The text without the blanks in front of it. -/
def trimStart (cs : List Char) : List Char :=
  cs.dropWhile isBlank

/-- The text without the blanks behind it. -/
def trimEnd (cs : List Char) : List Char :=
  (cs.reverse.dropWhile isBlank).reverse

/-- The text without the blanks around it. -/
def trim (cs : List Char) : List Char :=
  trimEnd (trimStart cs)

@[simp] theorem trimStart_nil : trimStart [] = [] := rfl

theorem trimStart_cons (c : Char) (cs : List Char) :
    trimStart (c :: cs) = if isBlank c then trimStart cs else c :: cs := by
  cases h : isBlank c <;> simp [trimStart, h]

theorem length_trimStart_le (cs : List Char) : (trimStart cs).length ≤ cs.length :=
  (List.dropWhile_suffix isBlank).length_le

/-- Upper case, for the letters of ASCII only. -/
def upper (cs : List Char) : List Char :=
  cs.map Char.toUpper

/-- Whether two texts agree when the case of ASCII letters is disregarded. -/
def sameLetters (a b : List Char) : Bool :=
  upper a == upper b

end Spreadsheet.Text
