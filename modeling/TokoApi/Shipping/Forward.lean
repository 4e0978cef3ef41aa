import TokoApi.Shipping.Sync

/-!
# One shipment that moves forward

Calls of `Create` and `AppendEvent` in any interleaving. Both read the row of the order's
shipment, decide, and write without a condition, so a decision can be out of date when
it is carried out. The order has at most one shipment, whose status never goes back,
exactly when each write still finds what its decision allows.
-/
namespace TokoApi.Shipping

open Db Lib.Rows Lib.Threads Lib.Runs

abbrev State := Sys Store Thread

abbrev Label := Act Request Call Nat

/-- The order in which a shipment goes through its statuses. -/
def course : List ShipmentStatus := [.pending, .shipped, .outForDelivery, .delivered]

/-- A change that does not go back along the course; what is delivered stays so. -/
abbrev NotBack (old new : ShipmentStatus) : Prop :=
  (old ∈ course → new ∈ course → course.idxOf old ≤ course.idxOf new) ∧
    (old = .delivered → new = .delivered)

theorem notBack_refl (status : ShipmentStatus) : NotBack status status :=
  ⟨fun _ _ => Nat.le_refl _, fun h => h⟩

theorem notBack_of_allowed {old new : ShipmentStatus}
    (h : allowedShipmentTransition old new = true) : NotBack old new := by
  cases old <;> cases new <;> first | decide | exact absurd h (by decide)

def shipmentsOf (s : Store) (order : Nat) : List Nat :=
  s.shipments.ids.filter fun id => (s.shipments.row id).orderID = order

def AtMostOne (order : Nat) (s : Store) : Prop :=
  ∀ a ∈ shipmentsOf s order, ∀ b ∈ shipmentsOf s order, a = b

/-- The step does not take a shipment of the order back. -/
def NeverBack (order : Nat) (c : State) (l : Label) : Prop :=
  ∀ d, serviceMachine.step c l = some d → ∀ id ∈ shipmentsOf c.shared order,
    NotBack (c.shared.shipments.row id).status (d.shared.shipments.row id).status

/-- What the call is about to write to the shipments of the order still fits: there is
none when it inserts one, and the status it updates is the one it has read, or one that
the event does not take back. -/
def Thread.timely (order : Nat) (s : Store) : Thread → Prop
  | .create a .createShipment => a.orderID = order → shipmentsOf s order = []
  | .append a (.updateShipment id shipment _) => a.orderID = order →
      (s.shipments.row id).status = shipment.status ∨ NotBack (s.shipments.row id).status a.status
  | _ => True

def Timely (order : Nat) (c : State) : Label → Prop
  | .act i .ok => ∀ t ∈ c.threads[i]?, t.timely order c.shared
  | _ => True

instance (order : Nat) (s : Store) (t : Thread) : Decidable (t.timely order s) := by
  unfold Thread.timely
  split <;> infer_instance

instance (order : Nat) (c : State) (l) : Decidable (Timely order c l) := by
  rcases l with _ | ⟨_, _ | _⟩ | _ <;> dsimp only [Timely] <;> infer_instance

/-! ## One statement -/

variable {order i : Nat} {s s' : Store} {t t' : Thread} {x : Call} {c d : State} {l : Label}

/-- The shipment that an `AppendEvent` has found and is going to update. -/
def Thread.found : Thread → Option (EventArgs × Nat × Shipment)
  | .append a (.insertEvent id shipment) => some (a, id, shipment)
  | .append a (.updateShipment id shipment _) => some (a, id, shipment)
  | _ => none

/-- The decision of `AppendEvent` on the row that it reads. -/
def Admits (s : Store) (f : EventArgs × Nat × Shipment) : Prop :=
  getShipmentByOrder s f.1.orderID = some (f.2.1, f.2.2) ∧
    allowedShipmentTransition (f.2.2.lastStatus.getD f.2.2.status) f.1.status = true

/-- The statements as far as the table of shipments goes. -/
inductive ShipmentEffect (s : Store) (t : Thread) (x : Call) (s' : Store) (t' : Thread) : Prop where
  | quiet (hs : s'.shipments = s.shipments) (hn : s.nextID ≤ s'.nextID)
      (hx : x = .ok → ∀ order, t.timely order s)
      (hf : ∀ f ∈ t'.found, t.found = some f ∨ Admits s f)
  | creates (a : CreateArgs) (ht : t = .create a .createShipment) (hx : x = .ok)
      (hs : s' = createShipment s (a.shipment s.now)) (hf : t'.found = none)
  | updates (a : EventArgs) (id : Nat) (shipment : Shipment) (event : ShipmentEvent)
      (ht : t = .append a (.updateShipment id shipment event)) (hx : x = .ok)
      (hs : s' = (updateShipmentStatus s id a.status).1) (hf : t'.found = none)

theorem orders_quiet {id : Nat} {status : OrderStatus} {b : Bool}
    (h : updateOrderStatusIfAllowed s id status = some (s', b)) :
    s'.shipments = s.shipments ∧ s.nextID ≤ s'.nextID := by
  obtain ⟨rfl, _⟩ | ⟨o, _, _, rfl⟩ := updateOrderStatusIfAllowed_inv h <;>
    exact ⟨rfl, Nat.le_refl _⟩

theorem createStep_shipments {a : CreateArgs} {pc pc' : CreatePc}
    (h : createStep i s a pc x = some (s', pc')) :
    ShipmentEffect s (.create a pc) x s' (.create a pc') := by
  have hfound : ∀ f ∈ Thread.found (.create a pc'),
      Thread.found (.create a pc) = some f ∨ Admits s f := forall_mem_none
  cases pc <;> cases x <;> simp only [createStep] at h
  case getOrder.ok =>
    split at h
    · cases h
      exact .quiet rfl (Nat.le_refl _) (fun _ _ => trivial) hfound
    · split at h <;> cases h <;> exact .quiet rfl (Nat.le_refl _) (fun _ _ => trivial) hfound
  case getShipment.ok =>
    split at h <;> cases h <;> exact .quiet rfl (Nat.le_refl _) (fun _ _ => trivial) hfound
  case updateOrder.ok =>
    obtain ⟨⟨s₁, b⟩, hu, he⟩ := Option.map_eq_some_iff.mp h
    cases he
    exact .quiet (orders_quiet hu).1 (orders_quiet hu).2 (fun _ _ => trivial) hfound
  all_goals cases h
  case createShipment.ok => exact .creates a rfl rfl rfl rfl
  all_goals exact .quiet rfl (Nat.le_refl _) (by simp) hfound

theorem eventStep_shipments {a : EventArgs} {pc pc' : EventPc}
    (h : eventStep i s a pc x = some (s', pc')) :
    ShipmentEffect s (.append a pc) x s' (.append a pc') := by
  cases pc <;> cases x <;> simp only [eventStep] at h
  case getShipment.ok =>
    split at h
    · cases h
      exact .quiet rfl (Nat.le_refl _) (fun _ _ => trivial) forall_mem_none
    · rename_i id shipment hget
      split at h <;> rename_i hallowed <;> cases h
      · refine .quiet rfl (Nat.le_refl _) (fun _ _ => trivial) fun f hf => .inr ?_
        cases hf
        exact ⟨hget, hallowed⟩
      · exact .quiet rfl (Nat.le_refl _) (fun _ _ => trivial) forall_mem_none
  case insertEvent.ok =>
    cases h
    exact .quiet rfl (Nat.le_refl _) (fun _ _ => trivial) fun f hf => .inl hf
  case updateShipment.ok id shipment event =>
    have hs : s' = (updateShipmentStatus s id a.status).1 ∧
        Thread.found (.append a pc') = none := by
      split at h <;> rename_i hup
      · cases h
        exact ⟨by rw [hup], rfl⟩
      · split at h <;> cases h <;> exact ⟨by rw [hup], rfl⟩
    exact .updates a id shipment event rfl rfl hs.1 hs.2
  case getOrderStatus.ok =>
    split at h
    · cases h
      exact .quiet rfl (Nat.le_refl _) (fun _ _ => trivial) forall_mem_none
    · split at h <;> cases h <;>
        exact .quiet rfl (Nat.le_refl _) (fun _ _ => trivial) forall_mem_none
  case updateOrder.ok =>
    obtain ⟨⟨s₁, b⟩, hu, he⟩ := Option.map_eq_some_iff.mp h
    cases he
    exact .quiet (orders_quiet hu).1 (orders_quiet hu).2 (fun _ _ => trivial) forall_mem_none
  all_goals cases h <;> exact .quiet rfl (Nat.le_refl _) (by simp) forall_mem_none

theorem serviceStep_shipments (h : serviceStep i s t x = some (s', t')) :
    ShipmentEffect s t x s' t' := by
  cases t with
  | create a pc =>
    obtain ⟨pc', hs, rfl⟩ := lifted_inv h
    exact createStep_shipments hs
  | append a pc =>
    obtain ⟨pc', hs, rfl⟩ := lifted_inv h
    exact eventStep_shipments hs

/-! ## What the calls rely on -/

/-- Keys are new, and the two columns for the status agree. -/
structure Consistent (s : Store) : Prop where
  fresh : ∀ id ∈ s.shipments.ids, id < s.nextID
  status : ∀ id ∈ s.shipments.ids,
    (s.shipments.row id).lastStatus.getD (s.shipments.row id).status = (s.shipments.row id).status

/-- The shipment that a call has found is there, belongs to the order of the call, and
had a status that admits the event. -/
def Found (s : Store) (t : Thread) : Prop :=
  ∀ f ∈ t.found, f.2.1 ∈ shipmentsOf s f.1.orderID ∧
    allowedShipmentTransition f.2.2.status f.1.status = true

theorem mem_shipmentsOf {id : Nat} :
    id ∈ shipmentsOf s order ↔ id ∈ s.shipments.ids ∧ (s.shipments.row id).orderID = order := by
  simp [shipmentsOf]

theorem Admits.found {f : EventArgs × Nat × Shipment} (hs : Consistent s) (h : Admits s f) :
    f.2.1 ∈ shipmentsOf s f.1.orderID ∧
      allowedShipmentTransition f.2.2.status f.1.status = true := by
  obtain ⟨hget, hallowed⟩ := h
  obtain ⟨id, hfind, he⟩ := Option.map_eq_some_iff.mp hget
  have hid : id ∈ s.shipments.ids := List.mem_of_find?_eq_some hfind
  have horder := List.find?_some hfind
  obtain ⟨rfl, hrow⟩ := Prod.mk.inj he
  rw [← hrow] at hallowed ⊢
  rw [hs.status _ hid] at hallowed
  exact ⟨mem_shipmentsOf.mpr ⟨hid, of_decide_eq_true horder⟩, hallowed⟩

theorem updateShipmentStatus_shipments {id : Nat} (status : ShipmentStatus)
    (hid : id ∈ s.shipments.ids) :
    (updateShipmentStatus s id status).1.shipments =
      s.shipments.set id { s.shipments.row id with
        status := status, lastStatus := some status, lastEventAt := some s.now } := by
  simp [updateShipmentStatus, hid]

theorem updateShipmentStatus_nextID (id : Nat) (status : ShipmentStatus) :
    (updateShipmentStatus s id status).1.nextID = s.nextID := by
  unfold updateShipmentStatus
  split <;> rfl

theorem shipmentsOf_update {id : Nat} (status : ShipmentStatus) (hid : id ∈ s.shipments.ids) :
    shipmentsOf (updateShipmentStatus s id status).1 order = shipmentsOf s order := by
  unfold shipmentsOf
  rw [updateShipmentStatus_shipments status hid]
  refine List.filter_congr fun k _ => ?_
  by_cases hk : k = id
  · rw [hk, Table.set_row_self]
  · rw [Table.set_row_ne _ _ hk]

theorem mem_shipmentsOf_create {id : Nat} {shipment : Shipment} (hs : Consistent s) :
    id ∈ shipmentsOf (createShipment s shipment) order ↔
      id ∈ shipmentsOf s order ∨ (id = s.nextID ∧ shipment.orderID = order) := by
  rw [mem_shipmentsOf, mem_shipmentsOf]
  by_cases hid : id = s.nextID
  · have hnew : s.nextID ∉ s.shipments.ids := fun h => Nat.lt_irrefl _ (hs.fresh _ h)
    simp [createShipment, Table.insert, hid, hnew]
  · simp [createShipment, Table.insert, hid]

section

variable (hs : Consistent s) (ht : Found s t) (h : ShipmentEffect s t x s' t')
include hs ht h

theorem ShipmentEffect.keeps {id : Nat} (hid : id ∈ shipmentsOf s order) :
    id ∈ shipmentsOf s' order := by
  cases h with
  | quiet hq _ _ _ => rwa [shipmentsOf, hq]
  | creates a _ _ hc _ =>
    rw [hc]
    exact (mem_shipmentsOf_create hs).mpr (.inl hid)
  | updates a k shipment event hpc _ hu _ =>
    subst hpc
    have hk : k ∈ s.shipments.ids := (mem_shipmentsOf.mp (ht _ rfl).1).1
    rwa [hu, shipmentsOf_update a.status hk]

theorem ShipmentEffect.consistent : Consistent s' := by
  cases h with
  | quiet hq hn _ _ =>
    constructor <;> rw [hq]
    · exact fun id hid => Nat.lt_of_lt_of_le (hs.fresh id hid) hn
    · exact hs.status
  | creates a _ _ hc _ =>
    subst hc
    constructor
    · intro id hid
      obtain hid | rfl : id ∈ s.shipments.ids ∨ id = s.nextID := by
        simpa [createShipment, Table.insert] using hid
      · exact Nat.lt_succ_of_lt (hs.fresh id hid)
      · exact Nat.lt_succ_self _
    · intro id hid
      by_cases hnew : id = s.nextID
      · simp [createShipment, Table.insert, hnew, CreateArgs.shipment]
      · have hold : id ∈ s.shipments.ids := by
          simpa [createShipment, Table.insert, hnew] using hid
        simpa [createShipment, Table.insert, hnew] using hs.status id hold
  | updates a k shipment event hpc _ hu _ =>
    subst hpc hu
    have hk : k ∈ s.shipments.ids := (mem_shipmentsOf.mp (ht _ rfl).1).1
    constructor
    · rw [updateShipmentStatus_shipments a.status hk, updateShipmentStatus_nextID]
      exact hs.fresh
    · rw [updateShipmentStatus_shipments a.status hk]
      intro id hid
      by_cases hik : id = k
      · simp [hik]
      · rw [Table.set_row_ne _ _ hik]
        exact hs.status id hid

theorem ShipmentEffect.found :
    Found s' t' := by
  have hkeeps : ∀ order, ∀ id ∈ shipmentsOf s order, id ∈ shipmentsOf s' order :=
    fun _ _ => h.keeps hs ht
  cases h with
  | quiet _ _ _ hf =>
    intro f hmem
    obtain hold | hnew := hf f hmem
    · exact ⟨hkeeps _ _ (ht f hold).1, (ht f hold).2⟩
    · exact ⟨hkeeps _ _ (hnew.found hs).1, (hnew.found hs).2⟩
  | creates _ _ _ _ hf | updates _ _ _ _ _ _ _ hf =>
    intro f hmem
    rw [hf] at hmem
    cases hmem

end

abbrev Outlined : State → Prop := Guarded (fun _ => Consistent) fun _ => Found

theorem outlined_step (hg : Outlined c) (h : serviceMachine.step c l = some d) : Outlined d := by
  refine guarded_step hg h ?_ ?_ ?_
  · rintro (a | a) _ <;> exact ⟨hg.1, forall_mem_none⟩
  · intro i x t s' t' _ ht hl
    have heffect := serviceStep_shipments hl
    have ht := hg.2 i t ht
    exact ⟨heffect.consistent hg.1 ht, heffect.found hg.1 ht, fun j u _ hu f hf =>
      ⟨heffect.keeps hg.1 ht (hg.2 j u hu f hf).1, (hg.2 j u hu f hf).2⟩⟩
  · intro e s' he
    cases he
    exact ⟨⟨hg.1.fresh, hg.1.status⟩, fun j u hu f hf => hg.2 j u hu f hf⟩

/-! ## Whole runs -/

theorem atMostOne_create_iff {shipment : Shipment} (hs : Consistent s) (hone : AtMostOne order s) :
    AtMostOne order (createShipment s shipment) ↔
      (shipment.orderID = order → shipmentsOf s order = []) := by
  have hmem : ∀ id, id ∈ shipmentsOf (createShipment s shipment) order ↔
      id ∈ shipmentsOf s order ∨ (id = s.nextID ∧ shipment.orderID = order) :=
    fun _ => mem_shipmentsOf_create hs
  have hnew : ∀ id ∈ shipmentsOf s order, id ≠ s.nextID :=
    fun id hid => Nat.ne_of_lt (hs.fresh id (mem_shipmentsOf.mp hid).1)
  refine (sole_put_iff (A := (· ∈ shipmentsOf s order)) (p := s.nextID) ?_ hone).trans ?_
  · intro id hid
    simp [hmem, hid]
  · constructor
    · intro h ho
      refine List.eq_nil_iff_forall_not_mem.mpr fun id hid => hnew id hid ?_
      exact h ((hmem _).mpr (.inr ⟨rfl, ho⟩)) id hid
    · intro hnone hself id hid
      rcases (hmem _).mp hself with hold | ⟨_, ho⟩
      · exact absurd rfl (hnew _ hold)
      · rw [hnone ho] at hid
        cases hid

/-- A step of a call keeps to one shipment and does not take it back exactly when it is
timely. -/
theorem ShipmentEffect.orderly_iff (hs : Consistent s) (ht : Found s t) (hone : AtMostOne order s)
    (h : ShipmentEffect s t x s' t') :
    (AtMostOne order s' ∧ ∀ id ∈ shipmentsOf s order,
        NotBack (s.shipments.row id).status (s'.shipments.row id).status) ↔
      (x = .ok → t.timely order s) := by
  cases h with
  | quiet hq _ hx _ =>
    refine iff_of_true ⟨?_, fun id _ => ?_⟩ fun hok => hx hok order
    · simpa only [AtMostOne, shipmentsOf, hq] using hone
    · rw [hq]
      exact notBack_refl _
  | creates a hpc hx hc _ =>
    subst hpc hc
    have hrows : ∀ id ∈ shipmentsOf s order, NotBack (s.shipments.row id).status
        ((createShipment s (a.shipment s.now)).shipments.row id).status := by
      intro id hid
      have hlt : id < s.nextID := hs.fresh id (mem_shipmentsOf.mp hid).1
      simpa [createShipment, Table.insert, Nat.ne_of_lt hlt] using notBack_refl _
    rw [atMostOne_create_iff hs hone, and_iff_left hrows]
    exact ⟨fun h _ => h, fun h => h hx⟩
  | updates a k shipment event hpc hx hu _ =>
    subst hpc hu
    obtain ⟨hk, hallowed⟩ := ht _ rfl
    obtain ⟨hin, howner⟩ := mem_shipmentsOf.mp hk
    have hone' : AtMostOne order (updateShipmentStatus s k a.status).1 := by
      simpa only [AtMostOne, shipmentsOf_update a.status hin] using hone
    rw [and_iff_right hone', updateShipmentStatus_shipments a.status hin]
    constructor
    · intro h _ ho
      refine .inr ?_
      simpa using h k (mem_shipmentsOf.mpr ⟨hin, howner.trans ho⟩)
    · intro h id hid
      by_cases hik : id = k
      · subst hik
        have ho : a.orderID = order := howner.symm.trans (mem_shipmentsOf.mp hid).2
        simp only [Table.set_row_self]
        obtain hsame | hfits := h hx ho
        · rw [hsame]
          exact notBack_of_allowed hallowed
        · exact hfits
      · rw [Table.set_row_ne _ _ hik]
        exact notBack_refl _

theorem orderly_step_iff (hg : Outlined c) (hone : AtMostOne order c.shared)
    (h : serviceMachine.step c l = some d) :
    AtMostOne order d.shared ∧ NeverBack order c l ↔ Timely order c l := by
  have hback : NeverBack order c l ↔ ∀ id ∈ shipmentsOf c.shared order,
      NotBack (c.shared.shipments.row id).status (d.shared.shipments.row id).status :=
    ⟨fun hb => hb d h, fun hb d' hd' => Option.some.inj (h.symm.trans hd') ▸ hb⟩
  rw [hback]
  cases Machine.step_effect h with
  | spawn r =>
    exact iff_of_true ⟨hone, fun _ _ => notBack_refl _⟩ trivial
  | env hs =>
    cases hs
    exact iff_of_true ⟨hone, fun _ _ => notBack_refl _⟩ trivial
  | @act i x t _ _ ht hl =>
    have hcond : Timely order c (.act i x) ↔ (x = .ok → t.timely order c.shared) := by
      cases x <;> simp [Timely, ht]
    rw [hcond]
    exact (serviceStep_shipments hl).orderly_iff hg.1 (hg.2 i t ht) hone

/-- Along every interleaving the order has at most one shipment, whose status never goes
back, exactly when every write of a shipment is timely. -/
theorem shipments_orderly_iff (order : Nat) (s : Store) (hs : Consistent s)
    (hone : AtMostOne order s) (acts : List Label) (c : State)
    (hr : run serviceMachine.step ⟨s, []⟩ acts = some c) :
    ((∀ n d, run serviceMachine.step ⟨s, []⟩ (acts.take n) = some d → AtMostOne order d.shared) ∧
        Meets serviceMachine.step (NeverBack order) ⟨s, []⟩ acts) ↔
      Meets serviceMachine.step (Timely order) ⟨s, []⟩ acts :=
  always_and_meets_iff (I := Outlined) (P := fun c => AtMostOne order c.shared)
    (fun _ _ _ hg _ h => outlined_step hg h) (fun _ _ _ hg ho h => orderly_step_iff hg ho h)
    (guarded_start hs) hone hr

/-! ## A paid order -/

def creates : Label := .spawn (.create ⟨7, "jne", "TRACK123"⟩)

def appends (status : ShipmentStatus) : Label := .spawn (.append ⟨7, status, none, none, none, ""⟩)

def statements (i n : Nat) : List Label := List.replicate n (.act i .ok)

/-- The shipment is created and reported as shipped and as delivered. -/
def oneByOne : List Label :=
  creates :: statements 0 4 ++ appends .shipped :: statements 1 5 ++
    appends .delivered :: statements 2 4

theorem consistent_paidOrder : Consistent paidOrder := ⟨by simp [paidOrder, emptyStore], by
  simp [paidOrder, emptyStore]⟩

theorem atMostOne_paidOrder : AtMostOne 7 paidOrder := List.forall_mem_nil _

theorem delivered_one_by_one :
    ∃ c, run serviceMachine.step ⟨paidOrder, []⟩ oneByOne = some c ∧
      (c.shared.shipments.row 0).status = .delivered ∧ AtMostOne 7 c.shared ∧
      Meets serviceMachine.step (NeverBack 7) ⟨paidOrder, []⟩ oneByOne := by
  refine reaches_and (by decide +kernel) fun c hc _ => ?_
  obtain ⟨hone, hback⟩ := (shipments_orderly_iff 7 paidOrder consistent_paidOrder
    atMostOne_paidOrder oneByOne c hc).mpr (by decide +kernel)
  exact ⟨hone _ c (run_take_length hc), hback⟩

def createdTwice : List Label :=
  [creates, creates] ++ statements 0 2 ++ statements 1 2 ++ statements 0 2 ++ statements 1 2

/-- Two events both find the shipment SHIPPED, and the older one is written last. -/
def reordered : List Label :=
  creates :: statements 0 4 ++ appends .shipped :: statements 1 5 ++
    [appends .outForDelivery, appends .delivered] ++ statements 2 2 ++ statements 3 4 ++
    statements 2 1

theorem two_shipments_and_back :
    (∃ c, run serviceMachine.step ⟨paidOrder, []⟩ createdTwice = some c ∧
      shipmentsOf c.shared 7 = [0, 1]) ∧
    (∃ c, run serviceMachine.step ⟨paidOrder, []⟩ (reordered.take 19) = some c ∧
      (c.shared.shipments.row 0).status = .delivered) ∧
    ∃ c, run serviceMachine.step ⟨paidOrder, []⟩ reordered = some c ∧
      (c.shared.shipments.row 0).status = .outForDelivery :=
  ⟨reaches (by decide +kernel), reaches (by decide +kernel), reaches (by decide +kernel)⟩

end TokoApi.Shipping
