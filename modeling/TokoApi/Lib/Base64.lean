import TokoApi.Lib.Text

/-!
# base64.RawURLEncoding

The URL alphabet of RFC 4648 without padding. An encoding has no white space, so
that trimming leaves it as it is.
-/
namespace TokoApi.Lib.Base64

open Text

def alphabet : List Char :=
  "ABCDEFGHIJKLMNOPQRSTUVWXYZabcdefghijklmnopqrstuvwxyz0123456789-_".toList

def digit (n : Nat) : Char := alphabet.getD n 'A'

/-- Three bytes make four digits; one or two bytes at the end make two or three. -/
def encode : List UInt8 → List Char
  | a :: b :: c :: rest =>
    digit (a.toNat / 4) :: digit (a.toNat % 4 * 16 + b.toNat / 16) ::
      digit (b.toNat % 16 * 4 + c.toNat / 64) :: digit (c.toNat % 64) :: encode rest
  | [a, b] =>
    [digit (a.toNat / 4), digit (a.toNat % 4 * 16 + b.toNat / 16), digit (b.toNat % 16 * 4)]
  | [a] => [digit (a.toNat / 4), digit (a.toNat % 4 * 16)]
  | [] => []

def encodeToString (buf : List UInt8) : String := String.ofList (encode buf)

example : encodeToString [251, 255, 1] = "-_8B" := by decide

theorem isSpace_digit (n : Nat) : isSpace (digit n) = false := by
  have hall : alphabet.all (!isSpace ·) = true := by decide
  unfold digit
  rw [List.getD_eq_getElem?_getD]
  cases h : alphabet[n]? with
  | none => rfl
  | some c => simpa using List.all_eq_true.mp hall c (List.mem_of_getElem? h)

theorem isSpace_encode {buf : List UInt8} {c : Char} (h : c ∈ encode buf) : isSpace c = false := by
  induction buf using encode.induct with
  | case1 a b d rest ih =>
    simp only [encode, List.mem_cons] at h
    rcases h with rfl | rfl | rfl | rfl | h
    iterate 4 exact isSpace_digit _
    exact ih h
  | case2 a b =>
    simp only [encode, List.mem_cons, List.not_mem_nil, or_false] at h
    rcases h with rfl | rfl | rfl <;> exact isSpace_digit _
  | case3 a =>
    simp only [encode, List.mem_cons, List.not_mem_nil, or_false] at h
    rcases h with rfl | rfl <;> exact isSpace_digit _
  | case4 => cases h

theorem trimSpace_encodeToString (buf : List UInt8) :
    trimSpace (encodeToString buf) = encodeToString buf :=
  trimSpace_of_no_space fun c hc => isSpace_encode (by simpa [encodeToString] using hc)

theorem encodeToString_ne_empty {buf : List UInt8} (h : buf ≠ []) : encodeToString buf ≠ "" := by
  intro he
  have hnil : encode buf = [] := by simpa [encodeToString] using he
  cases buf using encode.fun_cases with
  | case4 => exact h rfl
  | _ => cases hnil

end TokoApi.Lib.Base64
