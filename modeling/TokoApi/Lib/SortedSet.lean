import Mathlib.Data.List.Nodup
import Mathlib.Data.List.Sort

/-!
# Redis sorted sets

The sorted set commands a queue is built from. Members are unique: adding a
member that is present replaces its score. Every entry also has a note that no
command reads. A note collects what the entry stands for, so that one can say
which of several additions of one member it still represents: adding a member
that is present joins the notes, and a removal hands the note out.
-/
namespace TokoApi.Lib.Redis

structure Entry (μ : Type) where
  member : μ
  score : Int
  note : List Nat
  deriving DecidableEq

structure ZSet (μ : Type) where
  entries : List (Entry μ)
  nodup : (entries.map Entry.member).Nodup

namespace ZSet

variable {μ : Type} [DecidableEq μ]

def empty : ZSet μ := ⟨[], List.nodup_nil⟩

def find? (m : μ) (z : ZSet μ) : Option (Entry μ) := z.entries.find? fun e => e.member = m

abbrev Mem (m : μ) (z : ZSet μ) : Prop := ∃ e ∈ z.entries, e.member = m

def noteOf (m : μ) (z : ZSet μ) : List Nat := ((z.find? m).map Entry.note).getD []

/-- Some entry carries `i` in its note. -/
abbrev Carries (i : Nat) (z : ZSet μ) : Prop := ∃ e ∈ z.entries, i ∈ e.note

/-- ZREM. -/
def rem (m : μ) (z : ZSet μ) : ZSet μ where
  entries := z.entries.filter fun e => e.member ≠ m
  nodup := z.nodup.sublist (List.filter_sublist.map _)

/-- ZADD. -/
def add (m : μ) (score : Int) (note : List Nat) (z : ZSet μ) : ZSet μ where
  entries := ⟨m, score, z.noteOf m ++ note⟩ :: (z.rem m).entries
  nodup := by
    rw [List.map_cons, List.nodup_cons]
    refine ⟨fun hm => ?_, (z.rem m).nodup⟩
    obtain ⟨e, he, hem⟩ := List.mem_map.mp hm
    have hne := (List.mem_filter.mp he).2
    simp [hem] at hne

/-- ZPOPMIN, where it returns `m`. Redis breaks ties between equal scores by the
bytes of the members; here any entry of the least score may come. -/
def popMin (m : μ) (z : ZSet μ) : Option (Entry μ × ZSet μ) :=
  match z.find? m with
  | none => none
  | some e => if z.entries.all fun f => e.score ≤ f.score then some (e, z.rem m) else none

/-- ZRANGEBYSCORE from minus infinity. -/
def upTo (score : Int) (z : ZSet μ) : List (Entry μ) :=
  (z.entries.filter fun e => e.score ≤ score).insertionSort fun a b => a.score ≤ b.score

/-- ZREMRANGEBYSCORE from minus infinity. -/
def removeUpTo (score : Int) (z : ZSet μ) : ZSet μ where
  entries := z.entries.filter fun e => score < e.score
  nodup := z.nodup.sublist (List.filter_sublist.map _)

/-- ZCARD. -/
def card (z : ZSet μ) : Nat := z.entries.length

variable {m : μ} {z : ZSet μ} {e : Entry μ} {i : Nat} {score : Int} {note : List Nat}

theorem find?_some (h : z.find? m = some e) : e ∈ z.entries ∧ e.member = m :=
  ⟨List.mem_of_find?_eq_some h, by simpa using List.find?_some h⟩

theorem find?_of_mem (h : e ∈ z.entries) : z.find? e.member = some e := by
  obtain ⟨f, hf⟩ : ∃ f, z.find? e.member = some f :=
    Option.isSome_iff_exists.mp (List.find?_isSome.mpr ⟨e, h, by simp⟩)
  obtain ⟨hmem, hm⟩ := find?_some hf
  rw [hf, List.inj_on_of_nodup_map z.nodup hmem h hm]

theorem noteOf_eq (h : e ∈ z.entries) : z.noteOf e.member = e.note := by
  simp [noteOf, find?_of_mem h]

theorem mem_noteOf : i ∈ z.noteOf m ↔ ∃ e ∈ z.entries, e.member = m ∧ i ∈ e.note := by
  constructor
  · intro h
    cases hf : z.find? m with
    | none => simp [noteOf, hf] at h
    | some e =>
      obtain ⟨hmem, hm⟩ := find?_some hf
      exact ⟨e, hmem, hm, by simpa [noteOf, hf] using h⟩
  · rintro ⟨e, hmem, rfl, hi⟩
    rwa [noteOf_eq hmem]

theorem noteOf_carries (h : i ∈ z.noteOf m) : z.Carries i := by
  obtain ⟨e, he, _, hi⟩ := mem_noteOf.mp h
  exact ⟨e, he, hi⟩

@[simp] theorem mem_rem : e ∈ (z.rem m).entries ↔ e ∈ z.entries ∧ e.member ≠ m := by
  simp [rem]

@[simp] theorem mem_add : e ∈ (z.add m score note).entries ↔
      e = ⟨m, score, z.noteOf m ++ note⟩ ∨ e ∈ z.entries ∧ e.member ≠ m := by
  simp [add]

theorem add_of_fresh (h : ¬z.Mem m) : (z.add m score []).entries = ⟨m, score, []⟩ :: z.entries := by
  have hfind : z.find? m = none := by
    refine List.find?_eq_none.mpr fun e he hm => h ⟨e, he, ?_⟩
    simpa using hm
  have hrem : (z.rem m).entries = z.entries := by
    refine List.filter_eq_self.mpr fun e he => decide_eq_true fun hm => h ⟨e, he, hm⟩
  show (⟨m, score, z.noteOf m ++ []⟩ :: (z.rem m).entries : List (Entry μ)) = _
  rw [hrem, noteOf, hfind]
  rfl

theorem carries_add : (z.add m score note).Carries i ↔ z.Carries i ∨ i ∈ note := by
  constructor
  · rintro ⟨e, he, hi⟩
    obtain rfl | ⟨he, _⟩ := mem_add.mp he
    · exact (List.mem_append.mp hi).imp noteOf_carries id
    · exact .inl ⟨e, he, hi⟩
  · rintro (⟨e, he, hi⟩ | hi)
    · by_cases hm : e.member = m
      · refine ⟨_, mem_add.mpr (.inl rfl), List.mem_append_left _ ?_⟩
        exact mem_noteOf.mpr ⟨e, he, hm, hi⟩
      · exact ⟨e, mem_add.mpr (.inr ⟨he, hm⟩), hi⟩
    · exact ⟨_, mem_add.mpr (.inl rfl), List.mem_append_right _ hi⟩

section

variable {P : μ → List Nat → Prop} (hjoin : ∀ a b, P m a → P m b → P m (a ++ b))
  (hz : ∀ e ∈ z.entries, P e.member e.note) (hn : P m note)

theorem noteOf_cases : z.noteOf m = [] ∨ ∃ e ∈ z.entries, e.member = m ∧ z.noteOf m = e.note := by
  cases hf : z.find? m with
  | none => simp [noteOf, hf]
  | some e => exact .inr ⟨e, (find?_some hf).1, (find?_some hf).2, by simp [noteOf, hf]⟩

include hjoin hz hn

theorem notes_join : P m (note ++ z.noteOf m) := by
  rcases noteOf_cases (z := z) (m := m) with hnone | ⟨e, he, rfl, hnote⟩
  · rwa [hnone, List.append_nil]
  · rw [hnote]
    exact hjoin _ _ hn (hz e he)

theorem notes_add : ∀ e ∈ (z.add m score note).entries, P e.member e.note := by
  intro e he
  rcases mem_add.mp he with rfl | ⟨he, _⟩
  · rcases noteOf_cases (z := z) (m := m) with hnone | ⟨f, hf, rfl, hnote⟩
    · rwa [hnone]
    · rw [hnote]
      exact hjoin _ _ (hz f hf) hn
  · exact hz e he

end

theorem carries_rem (h : z.Carries i) : (z.rem m).Carries i ∨ i ∈ z.noteOf m := by
  obtain ⟨e, he, hi⟩ := h
  by_cases hm : e.member = m
  · exact .inr (mem_noteOf.mpr ⟨e, he, hm, hi⟩)
  · exact .inl ⟨e, mem_rem.mpr ⟨he, hm⟩, hi⟩

theorem popMin_inv {z' : ZSet μ} (h : z.popMin m = some (e, z')) :
    e ∈ z.entries ∧ e.member = m ∧ z' = z.rem m ∧ ∀ f ∈ z.entries, e.score ≤ f.score := by
  unfold popMin at h
  split at h
  · cases h
  · rename_i f hf
    split at h
    · rename_i hmin
      cases h
      obtain ⟨hmem, hm⟩ := find?_some hf
      exact ⟨hmem, hm, rfl, by simpa using hmin⟩
    · cases h

def copies (i : Nat) (z : ZSet μ) : Nat := z.entries.countP fun e => i ∈ e.note

omit [DecidableEq μ] in
theorem copies_eq_zero : z.copies i = 0 ↔ ¬ z.Carries i := by
  simp [copies, Carries, List.countP_eq_zero]

theorem countP_filter_member (p : Entry μ → Prop) [DecidablePred p] (l : List (Entry μ))
    (h : (l.map Entry.member).Nodup) :
    (l.filter fun e => e.member ≠ m).countP (fun e => p e) +
      (if ∃ e ∈ l, e.member = m ∧ p e then 1 else 0) = l.countP fun e => p e := by
  induction l with
  | nil => simp
  | cons e l ih =>
    rw [List.map_cons, List.nodup_cons] at h
    have ih := ih h.2
    by_cases hm : e.member = m
    · have hnone : ∀ f ∈ l, f.member ≠ m := by
        intro f hf hfm
        exact h.1 (List.mem_map.mpr ⟨f, hf, hfm.trans hm.symm⟩)
      have hrest : ¬ ∃ f ∈ l, f.member = m ∧ p f := by
        rintro ⟨f, hf, hfm, _⟩
        exact hnone f hf hfm
      rw [if_neg hrest] at ih
      rw [List.filter_cons_of_neg (by simpa using hm), List.countP_cons]
      simp only [List.mem_cons, exists_eq_or_imp, hm, true_and, hrest, or_false, decide_eq_true_eq]
      omega
    · rw [List.filter_cons_of_pos (by simpa using hm), List.countP_cons, List.countP_cons]
      simp only [List.mem_cons, exists_eq_or_imp, hm, false_and, false_or, decide_eq_true_eq]
      omega

theorem copies_rem : (z.rem m).copies i + (if i ∈ z.noteOf m then 1 else 0) = z.copies i := by
  simp only [mem_noteOf]
  exact countP_filter_member (fun e => i ∈ e.note) z.entries z.nodup

theorem copies_add : (z.add m score note).copies i =
      (z.rem m).copies i + if i ∈ z.noteOf m ++ note then 1 else 0 := by
  simp [copies, add, List.countP_cons]

theorem copies_add_le : (z.add m score note).copies i ≤ z.copies i + if i ∈ note then 1 else 0 := by
  have hrem := @copies_rem μ _ m z i
  rw [copies_add, ← hrem]
  by_cases hm : i ∈ z.noteOf m <;> by_cases hn : i ∈ note <;> simp [hm, hn]

def size (p : μ → Prop) [DecidablePred p] (z : ZSet μ) : Nat := z.entries.countP fun e => p e.member

section

variable {p : μ → Prop} [DecidablePred p] {m : μ} {z : ZSet μ}

theorem size_rem : (z.rem m).size p + (if z.Mem m ∧ p m then 1 else 0) = z.size p := by
  have hiff : (∃ e ∈ z.entries, e.member = m ∧ p e.member) ↔ z.Mem m ∧ p m := by
    constructor
    · rintro ⟨e, he, rfl, hp⟩
      exact ⟨⟨e, he, rfl⟩, hp⟩
    · rintro ⟨⟨e, he, rfl⟩, hp⟩
      exact ⟨e, he, rfl, hp⟩
  simp only [← hiff]
  exact countP_filter_member (fun e => p e.member) z.entries z.nodup

theorem size_add : (z.add m score note).size p = (z.rem m).size p + if p m then 1 else 0 := by
  simp [size, add, List.countP_cons]

omit [DecidableEq μ] in
theorem size_empty : (empty : ZSet μ).size p = 0 := rfl

omit [DecidableEq μ] in
theorem size_mono {r : μ → Prop} [DecidablePred r] (h : ∀ m, r m → p m) (z : ZSet μ) :
    z.size r ≤ z.size p :=
  List.countP_mono_left fun _ _ he => decide_eq_true (h _ (of_decide_eq_true he))

end

omit [DecidableEq μ] in
theorem mem_upTo : e ∈ z.upTo score ↔ e ∈ z.entries ∧ e.score ≤ score := by
  simp [upTo]

end ZSet

end TokoApi.Lib.Redis
