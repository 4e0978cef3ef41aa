import Mathlib.Data.List.DropRight

/-!
# Text functions of the Go standard library

`trimSpace` trims the white space of `unicode.IsSpace`. The case mappings map
the code points whose image is ASCII and leave the others: the results are only
ever compared with ASCII words, and no other code point can become one.
-/
namespace TokoApi.Lib.Text

def isSpace (c : Char) : Bool :=
  c.toNat ∈ [0x09, 0x0a, 0x0b, 0x0c, 0x0d, 0x20, 0x85, 0xa0, 0x1680, 0x2028, 0x2029, 0x202f,
    0x205f, 0x3000] || (0x2000 ≤ c.toNat && c.toNat ≤ 0x200a)

def trimLeft (s : List Char) : List Char := s.dropWhile isSpace

def trimSpace (s : String) : String :=
  String.ofList (trimLeft (trimLeft s.toList).reverse).reverse

/-- Besides A to Z, the dotted capital I and the Kelvin sign have an ASCII
lower case. -/
def lowerRune (c : Char) : Char :=
  if 'A' ≤ c ∧ c ≤ 'Z' then Char.ofNat (c.toNat + 32)
  else if c.toNat = 0x130 then 'i'
  else if c.toNat = 0x212a then 'k'
  else c

/-- Besides a to z, the dotless i and the long s have an ASCII upper case. -/
def upperRune (c : Char) : Char :=
  if 'a' ≤ c ∧ c ≤ 'z' then Char.ofNat (c.toNat - 32)
  else if c.toNat = 0x131 then 'I'
  else if c.toNat = 0x17f then 'S'
  else c

def toLower (s : String) : String := String.ofList (s.toList.map lowerRune)

def toUpper (s : String) : String := String.ofList (s.toList.map upperRune)

theorem trimSpace_of_no_space {s : String} (h : ∀ c ∈ s.toList, isSpace c = false) :
    trimSpace s = s := by
  have hkeep : ∀ {l : List Char}, (∀ c ∈ l, isSpace c = false) → trimLeft l = l := by
    intro l hl
    cases l with
    | nil => rfl
    | cons a l => exact List.dropWhile_cons_of_neg (by simp [hl a])
  unfold trimSpace
  rw [hkeep h, hkeep (by simpa using h), List.reverse_reverse, String.ofList_toList]

theorem trimLeft_of_initial {l m : List Char} (h : m <+: l) (hl : trimLeft l = l) :
    trimLeft m = m := by
  refine List.dropWhile_eq_self_iff.mpr fun hm hspace => ?_
  have hlen : 0 < l.length := Nat.lt_of_lt_of_le hm h.length_le
  exact List.dropWhile_eq_self_iff.mp hl hlen (h.getElem hm ▸ hspace)

theorem trimSpace_trimSpace (s : String) : trimSpace (trimSpace s) = trimSpace s := by
  have hidem : ∀ l, trimLeft (trimLeft l) = trimLeft l := List.dropWhile_idempotent isSpace
  have hinitial : (trimLeft (trimLeft s.toList).reverse).reverse <+: trimLeft s.toList := by
    refine List.reverse_suffix.mp ?_
    rw [List.reverse_reverse]
    exact List.dropWhile_suffix isSpace
  have hleft := trimLeft_of_initial hinitial (hidem _)
  have htrim : trimSpace s = String.ofList (trimLeft (trimLeft s.toList).reverse).reverse := rfl
  rw [htrim]
  generalize hd : trimLeft (trimLeft s.toList).reverse = d at hleft
  have hfix : trimLeft d = d := hd ▸ hidem _
  rw [trimSpace, String.toList_ofList, hleft, List.reverse_reverse, hfix]

example : toUpper (trimSpace "\t settled ") = "SETTLED" := by decide

/-! ## Two parts and a separator -/

theorem append_cons_eq_iff {α : Type} {sep : α} {a b c d : List α} :
    a ++ sep :: b = c ++ sep :: d ↔
      (a = c ∧ b = d) ∨ ∃ m, (c = a ++ sep :: m ∧ b = m ++ sep :: d) ∨
        (a = c ++ sep :: m ∧ d = m ++ sep :: b) := by
  constructor
  · intro h
    rcases List.append_eq_append_iff.mp h with ⟨m, hc, hb⟩ | ⟨m, ha, hd⟩
    · cases m with
      | nil => exact .inl ⟨by simpa using hc.symm, by simpa using hb⟩
      | cons x m =>
        obtain ⟨rfl, rfl⟩ : sep = x ∧ b = m ++ sep :: d := by simpa using hb
        exact .inr ⟨m, .inl ⟨hc, rfl⟩⟩
    · cases m with
      | nil => exact .inl ⟨by simpa using ha, by simpa using hd.symm⟩
      | cons x m =>
        obtain ⟨rfl, rfl⟩ : sep = x ∧ d = m ++ sep :: b := by simpa using hd
        exact .inr ⟨m, .inr ⟨ha, rfl⟩⟩
  · rintro (⟨rfl, rfl⟩ | ⟨m, ⟨rfl, rfl⟩ | ⟨rfl, rfl⟩⟩) <;> simp

theorem append_colon_eq_iff {a b c d : String} :
    a ++ ":" ++ b = c ++ ":" ++ d ↔
      (a = c ∧ b = d) ∨ ∃ m, (c = a ++ ":" ++ m ∧ b = m ++ ":" ++ d) ∨
        (a = c ++ ":" ++ m ∧ d = m ++ ":" ++ b) := by
  have hcolon : ":".toList = [':'] := rfl
  simp only [← String.toList_inj, String.toList_append, hcolon, List.append_assoc,
    List.singleton_append, append_cons_eq_iff]
  refine or_congr_right ⟨?_, ?_⟩
  · rintro ⟨m, hm⟩
    exact ⟨String.ofList m, by simpa only [String.toList_ofList] using hm⟩
  · rintro ⟨m, hm⟩
    exact ⟨m.toList, hm⟩

end TokoApi.Lib.Text
