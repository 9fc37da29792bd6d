/-!
# Blank characters

The white space that surrounds ids, argument texts and numbers and does not count: the control
characters with a line, paragraph or segment break, the plain space, and the space separators of
every width. Main statements: what `trimStart` leaves starts with nothing that it removes, nothing
is left exactly if there was nothing else, and no digit is blank.
-/

namespace Parley.Text

def blankCodes : List Nat := [
  0x09, 0x0a, 0x0b, 0x0c, 0x0d, 0x1c, 0x1d, 0x1e, 0x1f, 0x20, 0x85, 0xa0, 0x1680,
  0x2000, 0x2001, 0x2002, 0x2003, 0x2004, 0x2005, 0x2006, 0x2007, 0x2008, 0x2009, 0x200a,
  0x2028, 0x2029, 0x202f, 0x205f, 0x3000]

def isBlank (c : Char) : Bool :=
  blankCodes.contains c.toNat

theorem isBlank_of_isDigit {c : Char} (h : c.isDigit = true) : isBlank c = false := by
  have hbounds : 48 ≤ c.toNat ∧ c.toNat ≤ 57 := by
    simp only [Char.isDigit, Bool.and_eq_true, decide_eq_true_eq] at h
    exact ⟨UInt32.le_iff_toNat_le.1 h.1, UInt32.le_iff_toNat_le.1 h.2⟩
  have hcodes : ∀ n ∈ blankCodes, n < 48 ∨ 57 < n := by decide
  rw [isBlank, List.contains_eq_mem, decide_eq_false_iff_not]
  intro hblank
  rcases hcodes _ hblank with hbelow | habove
  · exact absurd hbounds.1 (by omega)
  · exact absurd hbounds.2 (by omega)

/-- The text without the characters of a class at its start. -/
def trimStart (drop : Char → Bool) (cs : List Char) : List Char :=
  cs.dropWhile drop

/-- The text without the characters of a class at its end. -/
def trimEnd (drop : Char → Bool) (cs : List Char) : List Char :=
  (trimStart drop cs.reverse).reverse

/-- The text without the characters of a class at its two ends. -/
def trim (drop : Char → Bool) (cs : List Char) : List Char :=
  trimEnd drop (trimStart drop cs)

def strip (cs : List Char) : List Char :=
  trim isBlank cs

def allBlank (cs : List Char) : Bool :=
  cs.all isBlank

/-- A text is trimmed to nothing exactly if all of it is dropped. -/
theorem trimStart_eq_nil_iff {drop : Char → Bool} {cs : List Char} :
    trimStart drop cs = [] ↔ cs.all drop = true := by
  induction cs with
  | nil => simp [trimStart]
  | cons c cs ih =>
    by_cases h : drop c = true <;> simp_all [trimStart]

/-- After trimming no character is left in front that would be dropped. -/
theorem trimStart_ne_drop {drop : Char → Bool} {c : Char} {cs r : List Char}
    (h : trimStart drop cs = c :: r) : drop c = false := by
  induction cs with
  | nil => simp [trimStart] at h
  | cons d cs ih =>
    by_cases hd : drop d = true
    · exact ih (by simpa [trimStart, hd] using h)
    · simp only [trimStart, List.dropWhile_cons, hd] at h
      simp_all

/-- Trimming both ends drops all of the text exactly if trimming one end does. -/
theorem trim_eq_nil_iff {drop : Char → Bool} {cs : List Char} :
    trim drop cs = [] ↔ cs.all drop = true := by
  constructor
  · intro h
    have hrev : trimStart drop (trimStart drop cs).reverse = [] := by
      simpa [trim, trimEnd] using h
    have hall : (trimStart drop cs).reverse.all drop = true := trimStart_eq_nil_iff.mp hrev
    cases hs : trimStart drop cs with
    | nil => exact trimStart_eq_nil_iff.mp hs
    | cons c r =>
      have hc : drop c = false := trimStart_ne_drop hs
      simp [hs, hc] at hall
  · intro h
    have hs : trimStart drop cs = [] := trimStart_eq_nil_iff.mpr h
    rw [trim, trimEnd, hs]
    rfl

/-- A text is stripped to nothing exactly if it is blank. -/
theorem strip_eq_nil_iff {cs : List Char} : strip cs = [] ↔ allBlank cs = true :=
  trim_eq_nil_iff

end Parley.Text
