import Mathlib.Algebra.Order.BigOperators.Group.List
import Mathlib.Algebra.Order.Group.Int
import TokoApi.Cart.AddItem
import TokoApi.Shop.Lines

/-!
# Concurrent additions to one line

Any number of calls of `AddItem` for one cart, product and variant, interleaved
statement by statement. When all have returned, the cart has one line with the
sum of all quantities exactly when every write was made on what its call had read
and the sum fits the column.
-/
namespace TokoApi.Shop

open Db Cart Lib.Threads Lib.Runs

/-- A request is a call of `AddItem` for the slot, with a positive quantity. -/
def AddsTo (cfg : Config) (k : Slot) : Label → Prop
  | .spawn r => ∃ cart product variant qty, r = .cart (.edit (.addItem cart product variant qty)) ∧
      editStart cfg.checkout.cartSvc (.addItem cart product variant qty) = .expires (k.args qty)
  | _ => True

def Thread.asked : Thread → Int
  | .cart (.edit (.addItem _ _ _ qty) _) => qty
  | _ => 0

def Thread.added : Thread → Int
  | .cart (.edit (.addItem _ _ _ qty) pc) => pc.added qty
  | _ => 0

def Thread.returnedNil : Thread → Bool
  | .cart (.edit _ (.returned (.ok _))) => true
  | _ => false

/-- A write that the database accepts is made on what its call has read. -/
def Thread.UpToDate (s : Store) : Thread → Prop
  | .cart (.edit _ pc) => (∀ w ∈ pc.write, (w.apply s).isOk = true) → pc.UpToDate s
  | _ => True

def UpToDate (c : State) : Label → Prop
  | .act i .ok => ∀ t ∈ c.threads[i]?, t.UpToDate c.shared
  | _ => True

instance (s : Store) (pc : EditPc) : Decidable (pc.UpToDate s) := by
  unfold EditPc.UpToDate
  split <;> infer_instance

instance (s : Store) (t : Thread) : Decidable (t.UpToDate s) := by
  unfold Thread.UpToDate
  split <;> infer_instance

instance (c : State) (a) : Decidable (UpToDate c a) := by
  rcases a with _ | ⟨_, _ | _⟩ | _ <;> dsimp only [UpToDate] <;> infer_instance

def added (c : State) : Int := (c.threads.map Thread.added).sum

def Thread.Adds (s : Store) (k : Slot) (n : Int) : Thread → Prop
  | .cart (.edit (.addItem _ _ _ qty) pc) => 0 < qty ∧ pc.Adds s k n qty
  | _ => False

/-- All requests are calls for the slot, which held `init` pieces at first. -/
structure Adding (k : Slot) (init : Int) (c : State) : Prop where
  keyed : Keyed c.shared
  bounded : Bounded c.shared k (init + added c)
  calls : ∀ t ∈ c.threads, t.Adds c.shared k (init + added c)

variable {cfg : Config} {k : Slot} {init n : Int} {s s' : Store} {i : Nat} {t t' : Thread} {x : Call}
  {c d : State} {a : Label}

theorem Thread.Adds.inv (h : t.Adds s k n) : ∃ cart product variant q pc,
    t = .cart (.edit (.addItem cart product variant q) pc) ∧ 0 < q ∧ pc.Adds s k n q := by
  unfold Thread.Adds at h
  split at h
  · exact ⟨_, _, _, _, _, rfl, h.1, h.2⟩
  · exact h.elim

theorem Thread.Adds.mono {n' : Int} (h : t.Adds s k n)
    (hread : ∀ it, Read s k n it → Read s' k n' it) : t.Adds s' k n' := by
  obtain ⟨_, _, _, q, pc, rfl, hq, ha⟩ := h.inv
  exact ⟨hq, ha.mono hread⟩

theorem editStart_positive {svc : Service} {cart product : String} {variant : Option String} {q : Int}
    {b : AddArgs} (h : editStart svc (.addItem cart product variant q) = .expires b) : 0 < q := by
  by_contra hq
  rw [editStart, if_pos (by omega)] at h
  cases h

theorem shopStep_edit {r : EditRequest} {pc : EditPc}
    (h : shopStep cfg i s (.cart (.edit r pc)) x = some (s', t')) : ∃ pc',
      t' = .cart (.edit r pc') ∧ editStep cfg.checkout.cartSvc s pc x = some (s', pc') := by
  obtain ⟨⟨_, _⟩, hc, he⟩ := Option.map_eq_some_iff.mp h
  obtain ⟨⟨_, pc'⟩, hs, he'⟩ := Option.map_eq_some_iff.mp hc
  cases he
  cases he'
  exact ⟨pc', rfl, hs⟩

theorem adding_act (hg : Adding k init c) (ht : c.threads[i]? = some t)
    (hl : shopStep cfg i c.shared t x = some (s', t')) :
    Adding k init ⟨s', c.threads.set i t'⟩ ∧
      (AddsUp s' k (init + added ⟨s', c.threads.set i t'⟩) ↔
        AddsUp c.shared k (init + added c) ∧ (x = .ok → t.UpToDate c.shared)) := by
  obtain ⟨cart, product, variant, q, pc, rfl, hq, ha⟩ := (hg.calls t (List.mem_of_getElem? ht)).inv
  obtain ⟨pc', ht', hs⟩ := shopStep_edit hl
  have hn : init + ((c.threads.set i t').map Thread.added).sum + pc.added q =
      init + added c + pc'.added q := by
    have hadded : t'.added = pc'.added q := by rw [ht']; rfl
    rw [add_assoc, add_assoc, ← hadded]
    exact congrArg (init + ·) (sum_map_set ht)
  have he := (add_step hg.bounded ha hs).effect hg.keyed hg.bounded hq hn
  refine ⟨⟨(edit_outcome hs).lines.keyed hg.keyed, he.bounded, ?_⟩, he.addsUp⟩
  have hown : t'.Adds s' k (init + ((c.threads.set i t').map Thread.added).sum) := by
    have := he.adds
    generalize init + _ = n' at this ⊢
    rw [ht']
    exact ⟨hq, this⟩
  exact forall_mem_set hown fun u hu => (hg.calls u hu).mono he.read

theorem adding_step (hg : Adding k init c) (ha : AddsTo cfg k a)
    (h : (shopMachine cfg).step c a = some d) :
    Adding k init d ∧ (AddsUp d.shared k (init + added d) ↔
      AddsUp c.shared k (init + added c) ∧ UpToDate c a) := by
  cases a with
  | spawn r =>
    obtain ⟨cart, product, variant, q, rfl, hstart⟩ := ha
    obtain rfl := Option.some.inj h
    have hthread : (shopMachine cfg).start (.cart (.edit (.addItem cart product variant q))) =
        .cart (.edit (.addItem cart product variant q) (.expires (k.args q))) := by
      rw [← hstart]
      rfl
    have hadded : added { c with threads := c.threads ++
        [(shopMachine cfg).start (.cart (.edit (.addItem cart product variant q)))] } = added c := by
      rw [added, hthread]
      simp [added, Thread.added, EditPc.added, EditPc.wrote]
    refine ⟨⟨hg.keyed, by rw [hadded]; exact hg.bounded, ?_⟩, ?_⟩ <;> rw [hadded]
    · refine forall_mem_concat ?_ hg.calls
      rw [hthread]
      exact ⟨editStart_positive hstart, rfl⟩
    · exact (and_iff_left trivial).symm
  | env e =>
    obtain ⟨s', hs, rfl⟩ := Machine.step_env h
    cases hs
    exact ⟨⟨⟨hg.keyed.nodup, hg.keyed.fresh⟩, hg.bounded, hg.calls⟩, (and_iff_left trivial).symm⟩
  | act i x =>
    obtain ⟨t, s', t', ht, hl, rfl⟩ := Machine.step_act h
    have hcond : UpToDate c (.act i x) ↔ (x = .ok → t.UpToDate c.shared) := by
      cases x <;> simp [UpToDate, ht]
    rw [hcond]
    exact adding_act hg ht hl

theorem bounded_start (hpos : ∀ it ∈ linesOf s k, 0 < it.qty) (hone : (linesOf s k).length ≤ 1) :
    Bounded s k (total s k + 0) := by
  unfold Bounded total
  match hl : linesOf s k, hone with
  | [], _ => simp
  | [it], _ =>
    have hit : 0 < it.qty := hpos it (by simp [hl])
    simp [hit, le_of_lt hit]

theorem sum_map_pos {α : Type} {f : α → Int} {l : List α} (h : ∀ a ∈ l, 0 < f a) :
    0 ≤ (l.map f).sum ∧ (l ≠ [] → 0 < (l.map f).sum) := by
  have hpos : ∀ q ∈ l.map f, 0 < q := List.forall_mem_map.mpr h
  exact ⟨List.sum_nonneg fun q hq => le_of_lt (hpos q hq),
    fun hl => List.sum_pos _ hpos (by simpa using hl)⟩

theorem Thread.Adds.returned (h : t.Adds s k n) (hnil : t.returnedNil = true) :
    0 < t.asked ∧ t.added = t.asked := by
  obtain ⟨_, _, _, q, pc, rfl, hq, _⟩ := h.inv
  unfold Thread.returnedNil at hnil
  split at hnil
  · rename_i heq
    cases heq
    exact ⟨hq, rfl⟩
  · cases hnil

/-- Along every run of calls of `AddItem` for one slot that all return no error, the
slot ends with one line that holds the initial quantity and all that was asked for,
exactly when every write was made on what its call had read. -/
theorem added_up_iff (cfg : Config) (k : Slot) (s₀ : Store) (hkeyed : Keyed s₀)
    (hpos : ∀ it ∈ linesOf s₀ k, 0 < it.qty) (hone : (linesOf s₀ k).length ≤ 1)
    (acts : List Label) (hadds : ∀ a ∈ acts, AddsTo cfg k a) (c : State)
    (hr : run (shopMachine cfg).step ⟨s₀, []⟩ acts = some c)
    (hnil : ∀ t ∈ c.threads, t.returnedNil = true)
    (hany : linesOf s₀ k ≠ [] ∨ c.threads ≠ []) :
    (∃ it, linesOf c.shared k = [it] ∧
      it.qty = total s₀ k + (c.threads.map Thread.asked).sum) ↔
      Meets (shopMachine cfg).step UpToDate ⟨s₀, []⟩ acts := by
  have hstart : Adding k (total s₀ k) ⟨s₀, []⟩ :=
    ⟨hkeyed, bounded_start hpos hone, fun t ht => by cases ht⟩
  obtain ⟨hend, hlast⟩ := last_iff_meets
    (P := fun c : State => AddsUp c.shared k (total s₀ k + added c))
    (fun _ _ _ hg ha hs => (adding_step hg ha hs).1)
    (fun _ _ _ hg ha hs => (adding_step hg ha hs).2) hstart hadds hr
  have hasked : ∀ t ∈ c.threads, 0 < t.asked ∧ t.added = t.asked :=
    fun t ht => (hend.calls t ht).returned (hnil t ht)
  have hsum : added c = (c.threads.map Thread.asked).sum :=
    congrArg List.sum (List.map_congr_left fun t ht => (hasked t ht).2)
  have hbegin : AddsUp s₀ k (total s₀ k + added ⟨s₀, []⟩) := ⟨hone, (add_zero _).symm⟩
  rw [← and_iff_right hbegin (b := Meets _ _ _ _), ← hlast, hsum]
  constructor
  · rintro ⟨it, hit, hq⟩
    exact (addsUp_singleton hit).mpr hq
  · rintro ⟨hlen, htotal⟩
    -- something was there or was added, so the slot is not empty
    obtain ⟨hinit, hinit'⟩ := sum_map_pos hpos
    obtain ⟨hcalls, hcalls'⟩ := sum_map_pos fun t ht => (hasked t ht).1
    have hsome : 0 < total s₀ k + (c.threads.map Thread.asked).sum := by
      rcases hany with h | h
      · exact add_pos_of_pos_of_nonneg (hinit' h) hcalls
      · exact add_pos_of_nonneg_of_pos hinit (hcalls' h)
    obtain ⟨it, hit⟩ : ∃ it, it ∈ linesOf c.shared k := by
      refine List.exists_mem_of_ne_nil _ fun hempty => ?_
      rw [← htotal, total, hempty] at hsome
      exact absurd hsome (by decide)
    have hline := eq_singleton hlen hit
    exact ⟨it, hline, (addsUp_singleton hline).mp ⟨hlen, htotal⟩⟩

/-! ## Two calls -/

def mug : Slot := ⟨11, 2, none⟩

def addsMug (qty : Int) : Label := .spawn (.cart (.edit (.addItem "11" "2" none qty)))

theorem addsMug_adds {qty : Int} (h : 0 < qty) : AddsTo numeralShop mug (addsMug qty) := by
  refine ⟨"11", "2", none, qty, rfl, ?_⟩
  rw [editStart, if_neg (by omega)]
  rfl

def oneByOne : List Label :=
  addsMug 3 :: List.replicate 5 (.act 0 .ok) ++ addsMug 4 :: List.replicate 4 (.act 1 .ok)

theorem one_by_one_adds_up :
    ∃ c, run (shopMachine numeralShop).step ⟨emptyCart, []⟩ oneByOne = some c ∧
      ∃ it, linesOf c.shared mug = [it] ∧ it.qty = 7 := by
  refine reaches_imp (P := fun c : State => c.threads.map Thread.asked = [3, 4] ∧
      ∀ t ∈ c.threads, t.returnedNil = true) (by decide +kernel) fun c hc ⟨hasked, hnil⟩ => ?_
  have hadds : ∀ a ∈ oneByOne, AddsTo numeralShop mug a := by
    intro a ha
    simp only [oneByOne, List.cons_append, List.mem_cons, List.mem_append, List.mem_replicate] at ha
    rcases ha with rfl | ⟨_, rfl⟩ | rfl | ⟨_, rfl⟩
    · exact addsMug_adds (by decide)
    · trivial
    · exact addsMug_adds (by decide)
    · trivial
  obtain ⟨it, hit, hq⟩ := (added_up_iff numeralShop mug emptyCart
    ⟨List.nodup_nil, by simp [emptyCart, emptyStore]⟩ (by decide) (by decide) oneByOne hadds c hc hnil
    (.inr fun h => by rw [h] at hasked; cases hasked)).mpr (by decide +kernel)
  rw [hasked] at hq
  exact ⟨it, hit, hq.trans (by decide)⟩

/-- Two calls find no line and both insert one; two calls find a line of one piece and
the second overwrites what the first has added. All calls return no error. -/
theorem overlapping_additions :
    ((run (shopMachine numeralShop).step ⟨emptyCart, []⟩
        (addsMug 3 :: addsMug 4 :: List.replicate 2 (.act 0 .ok) ++ List.replicate 5 (.act 1 .ok) ++
          List.replicate 3 (.act 0 .ok))).map fun c =>
      ((linesOf c.shared mug).map CartItem.qty, c.threads.all Thread.returnedNil)) =
        some ([4, 3], true) ∧
    ((run (shopMachine numeralShop).step ⟨emptyCart, []⟩
        (addsMug 1 :: List.replicate 5 (.act 0 .ok) ++ addsMug 3 :: addsMug 4 ::
          List.replicate 2 (.act 1 .ok) ++ List.replicate 4 (.act 2 .ok) ++
          List.replicate 2 (.act 1 .ok))).map fun c =>
      ((linesOf c.shared mug).map CartItem.qty, c.threads.all Thread.returnedNil)) =
        some ([4], true) := by
  decide +kernel

end TokoApi.Shop
