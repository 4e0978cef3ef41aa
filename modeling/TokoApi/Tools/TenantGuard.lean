import Mathlib.Algebra.GroupWithZero.Nat
import Mathlib.Data.List.TakeWhile

/-!
# The tenant guard

`checkFile` of cmd/tools/tenant_guard over the text of a query file. It goes through the file
line by line and keeps two flags for the file as a whole: that some line begins with SELECT,
UPDATE or DELETE, and that some line has a tenant filter. Which statement of the file the
filter belongs to is not looked at, so one filter is enough for all of them.

The regular expressions are matched as they are written. The white space of a pattern is a
maximal run, since what follows it is never white space; case is folded as Go does, under which
the long s is an s and the Kelvin sign a k. The text is given by its characters, so files that
are not valid UTF-8 are left out.
-/
namespace TokoApi.Tools

/-! ## Regular expressions -/

def isBlank (c : Char) : Bool := c = '\t' || c = '\n' || c = '\x0c' || c = '\r' || c = ' '

def isWord (c : Char) : Bool := c.isAlphanum || c = '_'

/-- The character `c` for the character `p` of a pattern, which is in lower case. -/
def folds (p c : Char) : Bool :=
  c = p || (p.isLower && c = p.toUpper) || (p = 's' && c.toNat = 0x17f) || (p = 'k' && c.toNat = 0x212a)

/-- What follows the word, if the text begins with it. -/
def afterWord : List Char → List Char → Option (List Char)
  | [], cs => some cs
  | _ :: _, [] => none
  | p :: w, c :: cs => if folds p c then afterWord w cs else none

/-- `(?i)^\s*word\b` for a word of letters. -/
def beginsWith (word line : List Char) : Bool :=
  (afterWord word (line.dropWhile isBlank)).any fun rest => !rest.head?.any isWord

def reSelect (line : List Char) : Bool := beginsWith ['s', 'e', 'l', 'e', 'c', 't'] line

def reUpdate (line : List Char) : Bool := beginsWith ['u', 'p', 'd', 'a', 't', 'e'] line

def reDelete (line : List Char) : Bool := beginsWith ['d', 'e', 'l', 'e', 't', 'e'] line

/-- `(?i)[0-9a-z_]`. -/
def isValueChar (c : Char) : Bool := isWord c || c.toNat = 0x17f || c.toNat = 0x212a

/-- A match of `(?i)tenant_id\s*=\s*\$?[0-9a-z_]+` at the beginning. -/
def tenantHere (cs : List Char) : Bool :=
  match afterWord ['t', 'e', 'n', 'a', 'n', 't', '_', 'i', 'd'] cs with
  | none => false
  | some rest =>
    match rest.dropWhile isBlank with
    | '=' :: value =>
      match value.dropWhile isBlank with
      | '$' :: c :: _ => isValueChar c
      | c :: _ => isValueChar c
      | [] => false
    | _ => false

def reTenant : List Char → Bool
  | [] => false
  | c :: cs => tenantHere (c :: cs) || reTenant cs

/-! ## The file -/

def byteLength (line : List Char) : Nat := (line.map Char.utf8Size).sum

def dropCR (line : List Char) : List Char := if line.getLast? = some '\r' then line.dropLast else line

/-- The lines as they are in the file; there is none after the last newline. -/
def rawLines (text : List Char) : List (List Char) :=
  let lines := text.splitOn '\n'
  if lines.getLast? = some [] then lines.dropLast else lines

/-- The buffer of a scanner has 64 KiB, with the newline. -/
def tooLong (line : List Char) : Bool := 65536 ≤ byteLength line

/-- The lines that `bufio.Scanner` returns. -/
def scanLines (text : List Char) : Except String (List (List Char)) :=
  if (rawLines text).any tooLong then .error "bufio.Scanner: token too long"
  else .ok ((rawLines text).map dropCR)

/-- One of the three patterns of statements. -/
def isStatement (line : List Char) : Bool := reSelect line || reUpdate line || reDelete line

structure Found where
  stmt : Bool
  tenant : Bool

/-- The body of the loop. -/
def Found.line (f : Found) (line : List Char) : Found where
  stmt := isStatement line || f.stmt
  tenant := reTenant line || f.tenant

/-- The end of the function. -/
def Found.verdict (f : Found) : Bool :=
  if !f.stmt then true
  else if !f.tenant then false
  else true

/-- `file` is the text, or the error that opening or reading it gives. -/
def checkFile (file : Except String (List Char)) : Except String Bool := do
  let text ← file
  let lines ← scanLines text
  return (lines.foldl Found.line ⟨false, false⟩).verdict

/-! ## What it checks -/

theorem foldl_line (lines : List (List Char)) (f : Found) :
    (lines.foldl Found.line f).stmt = (lines.any isStatement || f.stmt) ∧
      (lines.foldl Found.line f).tenant = (lines.any reTenant || f.tenant) := by
  induction lines generalizing f with
  | nil => exact ⟨rfl, rfl⟩
  | cons line lines ih =>
    obtain ⟨hstmt, htenant⟩ := ih (f.line line)
    rw [List.foldl_cons, hstmt, htenant]
    simp only [Found.line, List.any_cons]
    constructor <;> simp only [Bool.or_comm, Bool.or_left_comm]

theorem verdict_iff (f : Found) : f.verdict = true ↔ f.stmt = false ∨ f.tenant = true := by
  rcases f with ⟨_ | _, _ | _⟩ <;> decide

theorem checkFile_ok_iff (text : List Char) :
    checkFile (.ok text) = .ok true ↔
      (rawLines text).any tooLong = false ∧
        (((rawLines text).map dropCR).any isStatement = false ∨
          ((rawLines text).map dropCR).any reTenant = true) := by
  obtain ⟨hstmt, htenant⟩ := foldl_line ((rawLines text).map dropCR) ⟨false, false⟩
  rw [Bool.or_false] at hstmt htenant
  cases hlong : (rawLines text).any tooLong with
  | true =>
    have herror : checkFile (.ok text) = .error "bufio.Scanner: token too long" := by
      simp only [checkFile, scanLines, bind, Except.bind, if_pos hlong]
    simp [herror]
  | false =>
    have hscan : scanLines text = .ok ((rawLines text).map dropCR) := by
      rw [scanLines, hlong, if_neg Bool.false_ne_true]
    have hcheck : checkFile (.ok text) =
        .ok (((rawLines text).map dropCR).foldl Found.line ⟨false, false⟩).verdict := by
      simp only [checkFile, bind, Except.bind, hscan, pure, Except.pure]
    rw [hcheck, Except.ok.injEq, verdict_iff, hstmt, htenant, and_iff_right rfl]

/-! ## Statements -/

/-- The line that a text begins with. -/
def firstLine (text : List Char) : List Char := text.takeWhile (· ≠ '\n')

/-- A statement of a file: the text between two semicolons, or between one and an end of the
file. -/
structure Statement (file : List Char) where
  before : List Char
  text : List Char
  after : List Char
  within : file = before ++ text ++ after
  single : ';' ∉ text
  begins : before = [] ∨ before.getLast? = some ';'
  ends : after = [] ∨ after.head? = some ';'

namespace Statement

variable {file : List Char}

/-- Some line that begins in the statement has one of the three keywords at its start. -/
def Keyed (s : Statement file) : Prop :=
  ∃ a b, s.text = a ++ b ∧ (a.getLast? = some '\n' ∨ a = [] ∧ s.before = []) ∧
    isStatement (firstLine b) = true

/-- A tenant filter within the statement. -/
def Filtered (s : Statement file) : Prop := reTenant s.text = true

end Statement

section

variable {word cs rest line tail : List Char}

theorem afterWord_append (h : afterWord word cs = some rest) (tail : List Char) :
    afterWord word (cs ++ tail) = some (rest ++ tail) := by
  induction word generalizing cs with
  | nil =>
    cases h
    rfl
  | cons p word ih =>
    cases cs with
    | nil => cases h
    | cons c cs =>
      rw [List.cons_append, afterWord]
      rw [afterWord] at h
      split at h
      · rename_i hfold
        rw [if_pos hfold]
        exact ih h
      · cases h

theorem afterWord_before {c : Char} (hc : ∀ p ∈ word, folds p c = false)
    (h : afterWord word (cs ++ [c]) = some rest) :
    ∃ rest', afterWord word cs = some rest' ∧ rest = rest' ++ [c] := by
  induction word generalizing cs with
  | nil =>
    cases h
    exact ⟨cs, rfl, rfl⟩
  | cons p word ih =>
    cases cs with
    | nil =>
      rw [List.nil_append, afterWord, hc p List.mem_cons_self] at h
      cases h
    | cons d cs =>
      rw [List.cons_append, afterWord] at h
      rw [afterWord]
      split at h
      · rename_i hfold
        rw [if_pos hfold]
        exact ih (fun q hq => hc q (List.mem_cons_of_mem p hq)) h
      · cases h

theorem beginsWith_iff : beginsWith word line = true ↔
    ∃ rest, afterWord word (line.dropWhile isBlank) = some rest ∧ ∀ c ∈ rest.head?, isWord c = false := by
  unfold beginsWith
  cases afterWord word (line.dropWhile isBlank) with
  | none => simp
  | some rest => cases rest <;> simp

theorem afterWord_nil (hword : word ≠ []) : afterWord word [] = none := by
  cases word with
  | nil => exact absurd rfl hword
  | cons p word => rfl

theorem beginsWith_append (hword : word ≠ []) (htail : ∀ c ∈ tail.head?, isWord c = false)
    (h : beginsWith word line = true) : beginsWith word (line ++ tail) = true := by
  obtain ⟨rest, hrest, hend⟩ := beginsWith_iff.mp h
  have hne : line.dropWhile isBlank ≠ [] := by
    intro hnil
    rw [hnil, afterWord_nil hword] at hrest
    cases hrest
  refine beginsWith_iff.mpr ⟨rest ++ tail, ?_, ?_⟩
  · rw [List.dropWhile_append, if_neg (by simpa using hne)]
    exact afterWord_append hrest tail
  · cases rest with
    | nil => exact htail
    | cons c rest => exact hend

theorem beginsWith_dropCR (hword : word ≠ []) (hcr : ∀ p ∈ word, folds p '\r' = false)
    (h : beginsWith word line = true) : beginsWith word (dropCR line) = true := by
  unfold dropCR
  split
  · rename_i hlast
    obtain ⟨init, rfl⟩ := List.getLast?_eq_some_iff.mp hlast
    rw [List.dropLast_concat]
    obtain ⟨rest, hrest, hend⟩ := beginsWith_iff.mp h
    rw [List.dropWhile_append] at hrest
    split at hrest
    · -- a line of white space has no keyword
      rw [show ['\r'].dropWhile isBlank = [] from rfl, afterWord_nil hword] at hrest
      cases hrest
    · obtain ⟨rest', hrest', rfl⟩ := afterWord_before hcr hrest
      refine beginsWith_iff.mpr ⟨rest', hrest', ?_⟩
      cases rest' with
      | nil => exact nofun
      | cons c rest' => exact hend
  · exact h

end

/-! ## The line of a keyword -/

def keywords : List (List Char) :=
  [['s', 'e', 'l', 'e', 'c', 't'], ['u', 'p', 'd', 'a', 't', 'e'], ['d', 'e', 'l', 'e', 't', 'e']]

theorem isStatement_iff {line : List Char} :
    isStatement line = true ↔ ∃ word ∈ keywords, beginsWith word line = true := by
  simp [isStatement, reSelect, reUpdate, reDelete, keywords, or_assoc]

theorem keywords_spec : ∀ word ∈ keywords, word ≠ [] ∧ ∀ p ∈ word, folds p '\r' = false := by
  simp [keywords, folds]

section

variable {x y line : List Char}

theorem firstLine_mem_splitOn (y : List Char) : firstLine y ∈ y.splitOn '\n' := by
  have hnone : '\n' ∉ firstLine y := fun h => by simpa using List.mem_takeWhile_imp h
  have hsplit : firstLine y ++ y.dropWhile (· ≠ '\n') = y := List.takeWhile_append_dropWhile
  cases hrest : y.dropWhile (· ≠ '\n') with
  | nil =>
    have hy : firstLine y = y := by rw [hrest, List.append_nil] at hsplit; exact hsplit
    rw [hy] at hnone ⊢
    rw [List.splitOn_eq_singleton hnone]
    exact List.mem_singleton_self y
  | cons c rest =>
    obtain rfl : c = '\n' := by
      have hhead := List.head?_dropWhile_not (· ≠ '\n') y
      rw [hrest] at hhead
      simpa using hhead
    have hlines : y.splitOn '\n' = firstLine y :: rest.splitOn '\n' :=
      calc y.splitOn '\n' = (firstLine y ++ '\n' :: rest).splitOn '\n' := by rw [← hrest, hsplit]
        _ = firstLine y :: rest.splitOn '\n' :=
          List.splitOn_append_cons_self_of_not_mem hnone rest
    rw [hlines]
    exact List.mem_cons_self

theorem firstLine_mem_of_start (hx : x = [] ∨ x.getLast? = some '\n') :
    firstLine y ∈ (x ++ y).splitOn '\n' := by
  rcases hx with rfl | hlast
  · exact firstLine_mem_splitOn y
  · obtain ⟨init, rfl⟩ := List.getLast?_eq_some_iff.mp hlast
    rw [List.append_assoc, List.singleton_append, List.splitOn_append_cons_self]
    exact List.mem_append_right _ (firstLine_mem_splitOn y)

theorem mem_rawLines {text : List Char} (h : line ∈ text.splitOn '\n') (hne : line ≠ []) :
    line ∈ rawLines text := by
  unfold rawLines
  dsimp only
  split
  · rename_i hlast
    obtain ⟨init, hinit⟩ := List.getLast?_eq_some_iff.mp hlast
    rw [hinit] at h ⊢
    rw [List.dropLast_concat]
    rcases List.mem_append.mp h with hmem | hempty
    · exact hmem
    · exact absurd (List.mem_singleton.mp hempty) hne
  · exact h

theorem isStatement_firstLine {after : List Char} (hend : after = [] ∨ after.head? = some ';')
    (h : isStatement (firstLine y) = true) : isStatement (firstLine (y ++ after)) = true := by
  obtain ⟨word, hword, hbegins⟩ := isStatement_iff.mp h
  rw [firstLine, List.takeWhile_append]
  split
  · rename_i hall
    have hinitial : firstLine y <+: y := List.takeWhile_prefix _
    have hy : firstLine y = y := hinitial.eq_of_length hall
    rw [hy] at hbegins
    refine isStatement_iff.mpr ⟨word, hword, beginsWith_append (keywords_spec word hword).1 ?_ hbegins⟩
    rcases hend with rfl | hhead
    · exact nofun
    · obtain ⟨tail, rfl⟩ := List.head?_eq_some_iff.mp hhead
      intro c hc
      obtain rfl : ';' = c := by simpa using hc
      decide
  · exact h

end

theorem Statement.Keyed.line {file : List Char} {s : Statement file} (h : s.Keyed) :
    ((rawLines file).map dropCR).any isStatement = true := by
  obtain ⟨a, b, htext, hstart, hkeyword⟩ := h
  have hline := isStatement_firstLine s.ends hkeyword
  have hfile : file = (s.before ++ a) ++ (b ++ s.after) :=
    s.within.trans (by simp only [htext, List.append_assoc])
  have hbegin : s.before ++ a = [] ∨ (s.before ++ a).getLast? = some '\n' := by
    rcases hstart with hlast | ⟨ha, hbefore⟩
    · obtain ⟨init, rfl⟩ := List.getLast?_eq_some_iff.mp hlast
      exact .inr (by rw [← List.append_assoc, List.getLast?_concat])
    · exact .inl (by rw [ha, hbefore]; rfl)
  have hne : firstLine (b ++ s.after) ≠ [] := by
    intro hnil
    rw [hnil] at hline
    exact absurd hline (by decide)
  have hlines : file.splitOn '\n' = ((s.before ++ a) ++ (b ++ s.after)).splitOn '\n' :=
    congrArg (List.splitOn '\n') hfile
  have hmem : firstLine (b ++ s.after) ∈ rawLines file :=
    mem_rawLines (hlines ▸ firstLine_mem_of_start hbegin) hne
  obtain ⟨word, hword, hbegins⟩ := isStatement_iff.mp hline
  obtain ⟨hnonempty, hcr⟩ := keywords_spec word hword
  refine List.any_eq_true.mpr ⟨_, List.mem_map_of_mem hmem, ?_⟩
  exact isStatement_iff.mpr ⟨word, hword, beginsWith_dropCR hnonempty hcr hbegins⟩

/-! ## What passes -/

/-- The scanner gets through the file, and some line has a tenant filter. -/
def AnyFilter (file : List Char) : Prop :=
  (rawLines file).any tooLong = false ∧ ((rawLines file).map dropCR).any reTenant = true

/-- For every file: where the guard passes it, every SELECT, UPDATE and DELETE has a filter of
its own, exactly if that is so or the file has no filter at all. -/
theorem guard_sound_iff (file : List Char) :
    (checkFile (.ok file) = .ok true → ∀ s : Statement file, s.Keyed → s.Filtered) ↔
      (AnyFilter file → ∀ s : Statement file, s.Keyed → s.Filtered) := by
  rw [checkFile_ok_iff]
  constructor
  · intro h hany
    exact h ⟨hany.1, .inr hany.2⟩
  · rintro h ⟨hfits, hnone | htenant⟩ s hkeyed
    · exact absurd hkeyed.line (by rw [hnone]; exact Bool.false_ne_true)
    · exact h ⟨hfits, htenant⟩ s hkeyed

def twoStatements : List Char :=
  "SELECT * FROM a WHERE tenant_id = $1;\nDELETE FROM b WHERE id = $1;\n".toList

/-- The second statement of the file. -/
def deletion : Statement twoStatements where
  before := "SELECT * FROM a WHERE tenant_id = $1;".toList
  text := "\nDELETE FROM b WHERE id = $1".toList
  after := ";\n".toList
  within := by decide +kernel
  single := by decide +kernel
  begins := by decide +kernel
  ends := by decide +kernel

/-- The filter of the first statement lets the second one pass. -/
theorem unfiltered_deletion_passes :
    checkFile (.ok twoStatements) = .ok true ∧ deletion.Keyed ∧ ¬ deletion.Filtered := by
  refine ⟨by decide +kernel, ⟨['\n'], "DELETE FROM b WHERE id = $1".toList, ?_, .inl rfl, ?_⟩, ?_⟩
  · decide +kernel
  · decide +kernel
  · rw [Statement.Filtered]
    decide +kernel

end TokoApi.Tools
