import TokoApi.Lib.Text
import TokoApi.Queue.Kinds

/-!
# The names of the keys of a queue

The queue, the processing set and the dedup markers of every kind live in one Redis, under
names that are put together with colons. A kind may contain colons and an idempotency key
anything, so that names made of different parts can be the same text. `Clash` lists every
way in which that happens.
-/
namespace TokoApi.Queue

open Lib.Text

/-- A kind that `sanitizeKind` accepts. -/
structure Kind where
  text : String
  accepted : sanitizeKind text ≠ ""
  deriving DecidableEq

/-- What a key of the package is for. -/
inductive Name
  | queue (kind : Kind)
  | processing (kind : Kind)
  | dedup (kind : Kind) (key : String)
  deriving DecidableEq

namespace Name

def kind : Name → Kind
  | queue kind | processing kind | dedup kind _ => kind

def text (keyPrefix : String) : Name → String
  | queue kind => queueKey keyPrefix kind.text
  | processing kind => processingKey keyPrefix kind.text
  | dedup kind key => dedupKey keyPrefix kind.text key

def head (keyPrefix : String) : String := if keyPrefix = "" then "queue:" else keyPrefix ++ ":"

/-- What follows. Only the name of a queue has a word of its own that depends on whether there
is a prefix. -/
def rest (keyPrefix : String) : Name → String
  | queue kind => if keyPrefix = "" then kind.text else "queue" ++ ":" ++ kind.text
  | processing kind => kind.text ++ ":" ++ "processing"
  | dedup kind key => "dedup:" ++ kind.text ++ ":" ++ key

theorem text_eq (keyPrefix : String) (n : Name) : n.text keyPrefix = head keyPrefix ++ n.rest keyPrefix := by
  have hqueue : ":queue:" = ":" ++ ("queue" ++ ":") := rfl
  have hprocessing : ":processing" = ":" ++ "processing" := rfl
  have hmarker : "queue:dedup:" = "queue:" ++ "dedup:" := rfl
  have hdedup : ":dedup:" = ":" ++ "dedup:" := rfl
  cases n <;> unfold text head rest <;> dsimp only
  · unfold queueKey
    split <;> simp only [hqueue, String.append_assoc]
  · unfold processingKey
    split <;> simp only [hprocessing, String.append_assoc]
  · unfold dedupKey
    split <;> simp only [hmarker, hdedup, String.append_assoc]

end Name

/-! ## The clashes -/

def QueueIsProcessing (keyPrefix kind kind' : String) : Prop :=
  if keyPrefix = "" then kind = kind' ++ ":" ++ "processing"
  else (kind' = "queue" ∧ kind = "processing") ∨
    ∃ m, kind' = "queue" ++ ":" ++ m ∧ kind = m ++ ":" ++ "processing"

def QueueIsMarker (keyPrefix kind kind' key : String) : Prop :=
  keyPrefix = "" ∧ kind = "dedup:" ++ kind' ++ ":" ++ key

def ProcessingIsMarker (kind kind' key : String) : Prop :=
  (kind = "dedup:" ++ kind' ∧ key = "processing") ∨
    ∃ m, kind = "dedup:" ++ kind' ++ ":" ++ m ∧ key = m ++ ":" ++ "processing"

/-- Two kinds, one longer than the other by what the other's idempotency key begins with. -/
def MarkersMeet (kind key kind' key' : String) : Prop :=
  ∃ m, (kind' = kind ++ ":" ++ m ∧ key = m ++ ":" ++ key') ∨
    (kind = kind' ++ ":" ++ m ∧ key' = m ++ ":" ++ key)

/-- Names of different keys that are one text. -/
def Clash (keyPrefix : String) : Name → Name → Prop
  | .queue _, .queue _ => False
  | .queue k, .processing k' => QueueIsProcessing keyPrefix k.text k'.text
  | .queue k, .dedup k' key => QueueIsMarker keyPrefix k.text k'.text key
  | .processing k', .queue k => QueueIsProcessing keyPrefix k.text k'.text
  | .processing _, .processing _ => False
  | .processing k, .dedup k' key => ProcessingIsMarker k.text k'.text key
  | .dedup k' key, .queue k => QueueIsMarker keyPrefix k.text k'.text key
  | .dedup k' key, .processing k => ProcessingIsMarker k.text k'.text key
  | .dedup k key, .dedup k' key' => MarkersMeet k.text key k'.text key'

theorem Kind.ext_iff {k k' : Kind} : k = k' ↔ k.text = k'.text := by
  cases k
  cases k'
  simp

theorem word_ne {word m key : String} (h : ':' ∉ word.toList) : word ≠ m ++ ":" ++ key := by
  rintro rfl
  exact h (by simp)

section

variable {keyPrefix : String} {k k' : Kind} {key key' : String}

theorem queue_processing_iff :
    (Name.queue k).rest keyPrefix = (Name.processing k').rest keyPrefix ↔
      QueueIsProcessing keyPrefix k.text k'.text := by
  by_cases hp : keyPrefix = ""
  · simp only [Name.rest, QueueIsProcessing, if_pos hp]
  · simp only [Name.rest, QueueIsProcessing, if_neg hp, append_colon_eq_iff]
    constructor
    · rintro (⟨hk', hk⟩ | ⟨m, ⟨hk', hk⟩ | ⟨hqueue, _⟩⟩)
      · exact .inl ⟨hk'.symm, hk⟩
      · exact .inr ⟨m, hk', hk⟩
      · exact absurd hqueue (word_ne (by decide))
    · rintro (⟨hk', hk⟩ | ⟨m, hk', hk⟩)
      · exact .inl ⟨hk'.symm, hk⟩
      · exact .inr ⟨m, .inl ⟨hk', hk⟩⟩

theorem queue_dedup_iff :
    (Name.queue k).rest keyPrefix = (Name.dedup k' key).rest keyPrefix ↔
      QueueIsMarker keyPrefix k.text k'.text key := by
  by_cases hp : keyPrefix = ""
  · simp only [Name.rest, QueueIsMarker, hp, if_true, true_and]
  · simp only [Name.rest, QueueIsMarker, if_neg hp]
    refine iff_of_false (fun h => ?_) fun h => hp h.1
    have hfirst := congrArg (fun s : String => s.toList.head?) h
    simp [String.toList_append] at hfirst

theorem processing_dedup_iff :
    (Name.processing k).rest keyPrefix = (Name.dedup k' key).rest keyPrefix ↔
      ProcessingIsMarker k.text k'.text key := by
  simp only [Name.rest, ProcessingIsMarker, append_colon_eq_iff]
  constructor
  · rintro (⟨hk, hkey⟩ | ⟨m, ⟨_, hword⟩ | ⟨hk, hkey⟩⟩)
    · exact .inl ⟨hk, hkey.symm⟩
    · exact absurd hword (word_ne (by decide))
    · exact .inr ⟨m, hk, hkey⟩
  · rintro (⟨hk, hkey⟩ | ⟨m, hk, hkey⟩)
    · exact .inl ⟨hk, hkey.symm⟩
    · exact .inr ⟨m, .inr ⟨hk, hkey⟩⟩

theorem dedup_dedup_iff :
    (Name.dedup k key).rest keyPrefix = (Name.dedup k' key').rest keyPrefix ↔
      (k = k' ∧ key = key') ∨ MarkersMeet k.text key k'.text key' := by
  have hrest : ∀ (n : Kind) (m : String),
      (Name.dedup n m).rest keyPrefix = "dedup:" ++ (n.text ++ ":" ++ m) := by
    intro n m
    simp only [Name.rest, String.append_assoc]
  rw [hrest, hrest, String.append_right_inj, append_colon_eq_iff, Kind.ext_iff, MarkersMeet]

end

variable {keyPrefix : String} {a b : Name}

theorem text_eq_iff : a.text keyPrefix = b.text keyPrefix ↔ a = b ∨ Clash keyPrefix a b := by
  rw [Name.text_eq, Name.text_eq, String.append_right_inj]
  cases a <;> cases b <;> simp only [Clash, reduceCtorEq, false_or, or_false, Name.queue.injEq,
    Name.processing.injEq, Name.dedup.injEq]
  case queue.queue k k' =>
    by_cases hp : keyPrefix = ""
    · simp only [Name.rest, if_pos hp, Kind.ext_iff]
    · simp only [Name.rest, if_neg hp, String.append_right_inj, Kind.ext_iff]
  case queue.processing => exact queue_processing_iff
  case queue.dedup => exact queue_dedup_iff
  case processing.queue => exact eq_comm.trans queue_processing_iff
  case processing.processing k k' =>
    simp only [Name.rest, String.append_left_inj, Kind.ext_iff]
  case processing.dedup => exact processing_dedup_iff
  case dedup.queue => exact eq_comm.trans queue_dedup_iff
  case dedup.processing => exact eq_comm.trans processing_dedup_iff
  case dedup.dedup => exact dedup_dedup_iff

theorem not_clash_self (keyPrefix : String) (n : Name) : ¬ Clash keyPrefix n n := by
  cases n with
  | queue k | processing k => exact id
  | dedup k key =>
    have hshorter : ∀ m, k.text ≠ k.text ++ ":" ++ m := by
      intro m h
      have hlen := congrArg String.length h
      simp only [String.length_append, show ":".length = 1 from rfl] at hlen
      omega
    rintro ⟨m, ⟨h, _⟩ | ⟨h, _⟩⟩ <;> exact hshorter m h

/-- The keys of a namespace are told apart by their names exactly if no two of them clash. -/
theorem names_distinct_iff (keyPrefix : String) (a b : Name) :
    (a.text keyPrefix = b.text keyPrefix → a = b) ↔ ¬ Clash keyPrefix a b := by
  rw [text_eq_iff]
  constructor
  · intro hinj hclash
    have hab := hinj (.inr hclash)
    exact not_clash_self keyPrefix b (hab ▸ hclash)
  · rintro hnone (hab | hclash)
    · exact hab
    · exact absurd hclash hnone

def mail : Kind := ⟨"mail", by decide⟩

def mailProcessing : Kind := ⟨"mail:processing", by decide⟩

def mailDaily : Kind := ⟨"mail:daily", by decide⟩

/-- Without a prefix the processing set of kind `mail` is the queue of kind `mail:processing`,
and with any prefix two kinds share a dedup marker. -/
theorem one_text_for_two_keys :
    (Name.processing mail).text "" = (Name.queue mailProcessing).text "" ∧
      Name.processing mail ≠ Name.queue mailProcessing ∧
      (Name.dedup mail "daily:7").text "toko" = (Name.dedup mailDaily "7").text "toko" ∧
      Name.dedup mail "daily:7" ≠ Name.dedup mailDaily "7" := by
  decide +kernel

/-! ## Kinds without a colon -/

/-- Kinds without a colon clash under a prefix only, and then as the queue of `processing` with
the processing set of `queue`. -/
theorem Clash.of_plain (h : Clash keyPrefix a b)
    (ha : ':' ∉ a.kind.text.toList) (hb : ':' ∉ b.kind.text.toList) :
    keyPrefix ≠ "" ∧ (a.kind.text = "queue" ∨ b.kind.text = "queue") := by
  have hmarker : ∀ kind : String, "dedup:" ++ kind = "dedup" ++ ":" ++ kind := fun _ => rfl
  have hsets : ∀ {k k' : String}, ':' ∉ k.toList → ':' ∉ k'.toList →
      QueueIsProcessing keyPrefix k k' → keyPrefix ≠ "" ∧ k' = "queue" := by
    intro k k' hk hk' h
    unfold QueueIsProcessing at h
    split at h
    · exact absurd h (word_ne hk)
    · rename_i hp
      rcases h with ⟨h, _⟩ | ⟨m, h, _⟩
      · exact ⟨hp, h⟩
      · exact absurd h (word_ne hk')
  cases a <;> cases b <;> simp only [Clash, Name.kind] at h ha hb ⊢
  case queue.processing =>
    obtain ⟨hp, hqueue⟩ := hsets ha hb h
    exact ⟨hp, .inr hqueue⟩
  case processing.queue =>
    obtain ⟨hp, hqueue⟩ := hsets hb ha h
    exact ⟨hp, .inl hqueue⟩
  case queue.dedup => exact absurd h.2 (word_ne ha)
  case dedup.queue => exact absurd h.2 (word_ne hb)
  case processing.dedup =>
    rcases h with ⟨h, _⟩ | ⟨m, h, _⟩
    · exact absurd (hmarker _ ▸ h) (word_ne ha)
    · exact absurd h (word_ne ha)
  case dedup.processing =>
    rcases h with ⟨h, _⟩ | ⟨m, h, _⟩
    · exact absurd (hmarker _ ▸ h) (word_ne hb)
    · exact absurd h (word_ne hb)
  case dedup.dedup =>
    rcases h with ⟨m, ⟨h, _⟩ | ⟨h, _⟩⟩
    · exact absurd h (word_ne hb)
    · exact absurd h (word_ne ha)

/-- Kinds without a colon, none of them `queue`, have names of their own. -/
theorem plain_text_inj (ha : ':' ∉ a.kind.text.toList)
    (hb : ':' ∉ b.kind.text.toList) (haq : a.kind.text ≠ "queue") (hbq : b.kind.text ≠ "queue") :
    a.text keyPrefix = b.text keyPrefix ↔ a = b := by
  refine text_eq_iff.trans (or_iff_left fun hclash => ?_)
  exact (hclash.of_plain ha hb).2.elim haq hbq

theorem mail_text_inj :
    (Name.dedup mail "daily:7").text "toko" = (Name.processing mail).text "toko" ↔
      Name.dedup mail "daily:7" = .processing mail :=
  plain_text_inj (by decide) (by decide) (by decide) (by decide)

end TokoApi.Queue
