import TokoApi.Shipping.Service

/-!
# An event that is not accepted

One call of `AppendEvent`, with any of its statements failing. The event is inserted
first; the shipment and the order follow in statements of their own, and no exit takes
back what has been written. So an error leaves the tables as they were exactly where it
comes before the insertion.
-/
namespace TokoApi.Shipping

open Db Lib.Threads Lib.Runs

def Unchanged (s s' : Store) : Prop :=
  s'.shipments = s.shipments ∧ s'.shipmentEvents = s.shipmentEvents ∧ s'.orders = s.orders

def EventPc.inserts : EventPc → Call → Bool
  | .insertEvent _ _, .ok => true
  | _, _ => false

def Thread.insertsEvent : Thread → Call → Bool
  | .append _ pc, x => pc.inserts x
  | .create _ _, _ => false

/-- `AppendEvent` while no other request runs; time passes before each statement. -/
def appending (i : Nat) (a : EventArgs) (s : Store) (xs : List (Nat × Call)) :
    Option (Store × Thread) :=
  serviceMachine.paced.alone i (s, serviceStart (.append a)) xs

variable {i : Nat} {s₀ s s' : Store} {a : EventArgs} {pc pc' : EventPc} {x : Call}

/-- The points that are reached without an insertion. -/
def EventPc.early : EventPc → Bool
  | .getShipment | .insertEvent _ _ | .returned _ => true
  | _ => false

/-- What one statement does to the events. -/
inductive EventEffect (s : Store) (pc : EventPc) (x : Call) (s' : Store) (pc' : EventPc) : Prop where
  | reads (hs : s' = s) (hpc : pc.inserts x = false) (hpc' : pc'.early = true)
  | inserts {e} (hs : s' = insertShipmentEvent s e) (hpc : pc.inserts x = true)
  | follows (hs : s'.shipmentEvents = s.shipmentEvents) (hpc : pc.early = false)
      (hx : pc.inserts x = false)

theorem eventStep_events (h : eventStep i s a pc x = some (s', pc')) :
    EventEffect s pc x s' pc' := by
  cases pc <;> cases x <;> simp only [eventStep] at h
  case getShipment.ok =>
    split at h
    · cases h
      exact .reads rfl rfl rfl
    · split at h <;> cases h <;> exact .reads rfl rfl rfl
  case insertEvent.ok =>
    cases h
    exact .inserts rfl rfl
  case updateShipment.ok id sh e =>
    have hevents : (updateShipmentStatus s id a.status).1.shipmentEvents = s.shipmentEvents := by
      unfold updateShipmentStatus
      split <;> rfl
    split at h <;> rename_i hu <;> rw [hu] at hevents
    · cases h
      exact .follows hevents rfl rfl
    · split at h <;> cases h <;> exact .follows hevents rfl rfl
  case getOrderStatus.ok =>
    split at h
    · cases h
      exact .follows rfl rfl rfl
    · split at h <;> cases h <;> exact .follows rfl rfl rfl
  case updateOrder.ok =>
    obtain ⟨⟨s₁, b⟩, hu, he⟩ := Option.map_eq_some_iff.mp h
    cases he
    obtain ⟨rfl, _⟩ | ⟨o, _, _, rfl⟩ := updateOrderStatusIfAllowed_inv hu <;>
      exact .follows rfl rfl rfl
  all_goals cases h <;> exact .reads rfl rfl rfl

/-- Either nothing has been written, or there is an event more than there was. -/
def Logged (s₀ s : Store) (pc : EventPc) : Prop :=
  s₀.shipmentEvents.length < s.shipmentEvents.length ∨ (Unchanged s₀ s ∧ pc.early = true)

theorem Unchanged.not_grown (h : Unchanged s₀ s) :
    ¬ s₀.shipmentEvents.length < s.shipmentEvents.length := by
  rw [h.2.1]
  exact Nat.lt_irrefl _

theorem logged_step (he : EventEffect s pc x s' pc') (hl : Logged s₀ s pc) :
    Logged s₀ s' pc' ∧ (Unchanged s₀ s' ↔ Unchanged s₀ s ∧ pc.inserts x = false) := by
  cases he with
  | reads hs hpc hpc' =>
    subst hs
    constructor
    · exact hl.imp_right fun hsame => ⟨hsame.1, hpc'⟩
    · simp [hpc]
  | @inserts e hs hpc =>
    have hgrown : s'.shipmentEvents.length = s.shipmentEvents.length + 1 := by
      rw [hs]
      simp [insertShipmentEvent]
    have hlt : s₀.shipmentEvents.length < s'.shipmentEvents.length := by
      rcases hl with hg | ⟨hsame, _⟩
      · omega
      · rw [hgrown, hsame.2.1]
        exact Nat.lt_succ_self _
    constructor
    · exact .inl hlt
    · exact iff_of_false (fun hsame => hsame.not_grown hlt) (by simp [hpc])
  | follows hs hpc hx =>
    rcases hl with hg | ⟨_, hearly⟩
    · have hlt : s₀.shipmentEvents.length < s'.shipmentEvents.length := by rwa [hs]
      constructor
      · exact .inl hlt
      · exact iff_of_false (fun hsame => hsame.not_grown hlt) (fun hsame => hsame.1.not_grown hg)
    · rw [hpc] at hearly
      cases hearly

/-- A call that returns an error leaves the three tables as they were exactly when it has
not inserted the event. -/
theorem append_failure_unchanged_iff (i : Nat) (a : EventArgs) (s : Store) (xs : List (Nat × Call))
    (s' : Store) (err : Error)
    (hr : appending i a s xs = some (s', .append a (.returned (.error err)))) :
    Unchanged s s' ↔
      Meets (fun p x => serviceMachine.paced.lstep i p.1 p.2 x)
        (fun p x => p.2.insertsEvent x.2 = false) (s, serviceStart (.append a)) xs := by
  refine Iff.trans (last_iff_meets
    (I := fun p : Store × Thread => ∃ pc, p.2 = .append a pc ∧ Logged s p.1 pc)
    (P := fun p => Unchanged s p.1) (A := fun _ => True) ?_ ?_
    ⟨.getShipment, rfl, .inr ⟨⟨rfl, rfl, rfl⟩, rfl⟩⟩ (fun _ _ => trivial) hr).2
    (and_iff_right ⟨rfl, rfl, rfl⟩)
  all_goals
    rintro ⟨s₁, t⟩ ⟨d, x⟩ ⟨s₂, t'⟩ ⟨pc, rfl, hl⟩ _ hs
    obtain ⟨⟨s₃, pc'⟩, hstep, he⟩ := Option.map_eq_some_iff.mp hs
    cases he
    have hlogged := logged_step (eventStep_events hstep) (hl : Logged s { s₁ with now := s₁.now + d } pc)
  · exact ⟨pc', rfl, hlogged.1⟩
  · exact hlogged.2

/-! ## An order on its way -/

def underWay : Store :=
  { emptyStore with
    nextID := 8
    orders := ⟨[7], fun _ => .free ⟨some 1, none, .shipped, 100, 0, 0, 0, 100, none, 0⟩⟩
    shipments := ⟨[5], fun _ => ⟨7, .shipped, some "jne", some "TRACK123", some .shipped, some 0⟩⟩ }

def deliveredEvent : EventArgs := ⟨7, .delivered, none, none, none, ""⟩

/-- The courier reports the delivery; all calls of the store succeed but the last. -/
def failsAfter (n : Nat) : Option (Store × Thread) :=
  appending 0 deliveredEvent underWay (.replicate n (1, .ok) ++ [(1, .fail "connection reset")])

def lost : Thread := .append deliveredEvent (.returned (.error (.store "connection reset")))

/-- The insertion of the event fails. -/
theorem insert_failure_unchanged :
    ∃ s', failsAfter 1 = some (s', lost) ∧ Unchanged underWay s' := by
  obtain ⟨⟨s', t⟩, hp, ht⟩ := reaches (P := fun p : Store × Thread => p.2 = lost) (o := failsAfter 1)
    (by decide +kernel)
  cases ht
  exact ⟨s', hp, (append_failure_unchanged_iff 0 deliveredEvent underWay _ s' _ hp).mpr
    (by decide +kernel)⟩

/-- The update of the shipment fails and leaves the event, which the redelivery inserts
once more; the query for the order fails and leaves the shipment DELIVERED. -/
theorem later_failure_keeps_event :
    (∃ p, failsAfter 2 = some p ∧ p.2 = lost ∧ p.1.shipmentEvents.map (·.status) = [.delivered] ∧
      ((appending 1 deliveredEvent p.1 (.replicate 5 (1, .ok))).any fun q =>
        q.1.shipmentEvents.map (·.status) = [.delivered, .delivered]) = true) ∧
    ∃ p, failsAfter 3 = some p ∧ p.2 = lost ∧ (p.1.shipments.row 5).status = .delivered ∧
      (p.1.orders.row 7).committed.status = .shipped :=
  ⟨reaches (by decide +kernel), reaches (by decide +kernel)⟩

end TokoApi.Shipping
