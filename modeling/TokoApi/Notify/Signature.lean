import TokoApi.Lib.Bytes
import TokoApi.Lib.Numbers

/-!
# The signature of a delivery

`ComputeSignature` and `uuidFrom` of notify/webhook.go. What is signed are the decimal
time stamp, the text of the event's id and the body, with a dot between two of them.
Neither of the first two has a dot, so the signed bytes can be read in one way only; the
body may have as many as it likes.
-/
namespace TokoApi.Notify

open Lib.Bytes Lib.Numbers

/-- `pgtype.UUID`, of bytes or of the keys of a table. -/
structure UUID (α : Type) where
  bytes : α
  valid : Bool

/-- `string` is `uuid.UUID.String`. -/
def uuidFrom {α : Type} (string : α → String) (value : UUID α) : String :=
  if value.valid then string value.bytes else ""

abbrev UUIDBytes := { bs : List UInt8 // bs.length = 16 }

/-- `uuid.UUID.String`: groups of 4, 2, 2, 2 and 6 bytes. -/
def uuidChars (bs : List UInt8) : List Char :=
  encodeHex (bs.take 4) ++ '-' :: (encodeHex ((bs.drop 4).take 2) ++
    '-' :: (encodeHex ((bs.drop 6).take 2) ++ '-' :: (encodeHex ((bs.drop 8).take 2) ++
      '-' :: encodeHex (bs.drop 10))))

def uuidString (u : UUIDBytes) : String := String.ofList (uuidChars u.1)

def dot : UInt8 := 46

def signedBytes (ts : Int) (eventID : String) (body : List UInt8) : List UInt8 :=
  textBytes (toString ts) ++ dot :: (textBytes eventID ++ dot :: body)

/-- `hmac` is HMAC-SHA256, of a key and a message. -/
def computeSignature (hmac : List UInt8 → List UInt8 → List UInt8) (secret : String) (ts : Int)
    (eventID : String) (body : List UInt8) : String :=
  String.ofList (encodeHex (hmac (textBytes secret) (signedBytes ts eventID body)))

/-! ## Neither field has a dot -/

theorem dot_notMem_textBytes {s : String} (h : '.' ∉ s.toList) : dot ∉ textBytes s :=
  fun hmem => h (mem_of_mem_textBytes (c := '.') (by decide) hmem)

theorem dot_notMem_toString (ts : Int) : '.' ∉ (toString ts).toList :=
  (decimal_of_digits (signedDigits_toString ts)).2

theorem mem_uuidChars {bs : List UInt8} {c : Char} (h : c ∈ uuidChars bs) :
    c = '-' ∨ c ∈ hexDigits := by
  simp only [uuidChars, List.mem_append, List.mem_cons] at h
  rcases h with h | h | h | h | h | h | h | h | h <;>
    first
    | exact .inl h
    | exact .inr (mem_hexDigits_of_mem_encodeHex h)

theorem dot_notMem_uuidFrom (value : UUID UUIDBytes) : '.' ∉ (uuidFrom uuidString value).toList := by
  unfold uuidFrom
  split
  · rw [uuidString, String.toList_ofList]
    intro h
    rcases mem_uuidChars h with hdash | hhex
    · exact absurd hdash (by decide)
    · exact absurd hhex (by decide)
  · exact List.not_mem_nil

/-! ## Reading back -/

theorem dash_notMem_encodeHex (bs : List UInt8) : '-' ∉ encodeHex bs :=
  fun h => absurd (mem_hexDigits_of_mem_encodeHex h) (by decide)

theorem uuid_group_inj {as bs : List UInt8} {u v : List Char}
    (h : encodeHex as ++ '-' :: u = encodeHex bs ++ '-' :: v) : as = bs ∧ u = v := by
  obtain ⟨hgroup, hrest⟩ :=
    append_separator_inj (dash_notMem_encodeHex as) (dash_notMem_encodeHex bs) h
  exact ⟨encodeHex_injective hgroup, hrest⟩

theorem uuidChars_injective : Function.Injective uuidChars := by
  intro as bs h
  obtain ⟨h₁, h⟩ := uuid_group_inj h
  obtain ⟨h₂, h⟩ := uuid_group_inj h
  obtain ⟨h₃, h⟩ := uuid_group_inj h
  obtain ⟨h₄, h⟩ := uuid_group_inj h
  have h₅ : as.drop 10 = bs.drop 10 := encodeHex_injective h
  have hparts : ∀ l : List UInt8, l = l.take 4 ++ ((l.drop 4).take 2 ++
      ((l.drop 6).take 2 ++ ((l.drop 8).take 2 ++ l.drop 10))) := by
    intro l
    have hcut : ∀ n, (l.drop n).take 2 ++ l.drop (n + 2) = l.drop n := by
      intro n
      rw [← List.drop_drop, List.take_append_drop]
    rw [hcut 8, hcut 6, hcut 4, List.take_append_drop]
  rw [hparts as, hparts bs, h₁, h₂, h₃, h₄, h₅]

theorem uuidFrom_inj {a b : UUID UUIDBytes} (h : uuidFrom uuidString a = uuidFrom uuidString b) :
    a.valid = b.valid ∧ (a.valid = true → a.bytes = b.bytes) := by
  have hne : ∀ u, uuidString u ≠ "" := by
    intro u he
    have hnil : uuidChars u.1 = [] := by simpa [uuidString] using he
    simp [uuidChars] at hnil
  unfold uuidFrom at h
  cases ha : a.valid <;> cases hb : b.valid <;> simp only [ha, hb, if_true, if_false,
    Bool.false_eq_true] at h
  · exact ⟨rfl, fun hf => absurd hf (by decide)⟩
  · exact absurd h.symm (hne b.bytes)
  · exact absurd h (hne a.bytes)
  · exact ⟨rfl, fun _ => Subtype.ext (uuidChars_injective (String.ofList_injective h))⟩

theorem signedBytes_inj {ts ts' : Int} {id id' : UUID UUIDBytes} {body body' : List UInt8}
    (h : signedBytes ts (uuidFrom uuidString id) body = signedBytes ts' (uuidFrom uuidString id') body') :
    ts = ts' ∧ uuidFrom uuidString id = uuidFrom uuidString id' ∧ body = body' := by
  obtain ⟨hts, hrest⟩ := append_separator_inj (dot_notMem_textBytes (dot_notMem_toString ts))
    (dot_notMem_textBytes (dot_notMem_toString ts')) h
  obtain ⟨hid, hbody⟩ := append_separator_inj (dot_notMem_textBytes (dot_notMem_uuidFrom id))
    (dot_notMem_textBytes (dot_notMem_uuidFrom id')) hrest
  refine ⟨?_, textBytes_injective hid, hbody⟩
  have hread := congrArg signedDigits (textBytes_injective hts)
  rw [signedDigits_toString, signedDigits_toString] at hread
  exact Option.some.inj hread

/-- With a MAC that is injective for the key, two deliveries with one signature have the
same time stamp, event and body. -/
theorem same_signature_same_delivery (hmac : List UInt8 → List UInt8 → List UInt8) (secret : String)
    (hinj : Function.Injective (hmac (textBytes secret))) (ts ts' : Int)
    (id id' : UUID UUIDBytes) (body body' : List UInt8)
    (h : computeSignature hmac secret ts (uuidFrom uuidString id) body =
      computeSignature hmac secret ts' (uuidFrom uuidString id') body') :
    ts = ts' ∧ uuidFrom uuidString id = uuidFrom uuidString id' ∧ body = body' ∧
      id.valid = id'.valid ∧ (id.valid = true → id.bytes = id'.bytes) := by
  have hmessage := hinj (encodeHex_injective (String.ofList_injective h))
  obtain ⟨hts, hid, hbody⟩ := signedBytes_inj hmessage
  exact ⟨hts, hid, hbody, uuidFrom_inj hid⟩

/-- An id that is not valid keeps whatever bytes it has. -/
def invalidID (b : UInt8) : UUID UUIDBytes := ⟨⟨List.replicate 16 b, List.length_replicate⟩, false⟩

/-- Those bytes are not signed. -/
theorem invalid_id_signed :
    computeSignature (fun _ m => m) "secret" (-17) (uuidFrom uuidString (invalidID 255)) [dot] =
        String.ofList (encodeHex (textBytes "-17...")) ∧
      uuidFrom uuidString (invalidID 255) = uuidFrom uuidString (invalidID 0) ∧
      (invalidID 255).valid = (invalidID 0).valid := by
  have hsame : computeSignature (fun _ m => m) "secret" (-17) (uuidFrom uuidString (invalidID 255)) [dot] =
      computeSignature (fun _ m => m) "secret" (-17) (uuidFrom uuidString (invalidID 0)) [dot] := rfl
  obtain ⟨_, hid, _, hvalid, _⟩ := same_signature_same_delivery (fun _ m => m) "secret"
    Function.injective_id (-17) (-17) (invalidID 255) (invalidID 0) [dot] [dot] hsame
  exact ⟨by decide +kernel, hid, hvalid⟩

end TokoApi.Notify
