import TokoApi.Cart.Effects

/-!
# Lines and what requests have read of them

A line keeps its key, its cart, its product and its unit price from its insertion
on; the statements change quantity and subtotal. So a request that has read a line
knows the unit price of the row it writes later, if the row is still there.
-/
namespace TokoApi.Cart

open Db Lib.Threads

/-- Every line has a key of its own, and new keys are new. -/
structure Keyed (s : Store) : Prop where
  nodup : (s.cartItems.map CartItem.id).Nodup
  fresh : ∀ it ∈ s.cartItems, it.id < s.nextID

/-- The columns that no statement changes. -/
def SameLine (a b : CartItem) : Prop :=
  a.cartID = b.cartID ∧ a.productID = b.productID ∧ a.variantID = b.variantID ∧
    a.unitPrice = b.unitPrice

theorem SameLine.trans {a b c : CartItem} (h : SameLine a b) (h' : SameLine b c) : SameLine a c :=
  ⟨h.1.trans h'.1, h.2.1.trans h'.2.1, h.2.2.1.trans h'.2.2.1, h.2.2.2.trans h'.2.2.2⟩

/-- A line that was in the table when it was read. -/
structure Held (s : Store) (it : CartItem) : Prop where
  old : it.id < s.nextID
  same : ∀ row ∈ s.cartItems, row.id = it.id → SameLine row it

def EditPc.held : EditPc → List CartItem
  | .addQty _ _ item | .setQty item _ => [item]
  | _ => []

def MergePc.held : MergePc → List CartItem
  | .findItem _ item rest | .createItem _ item rest => item :: rest
  | .setQty _ existing item rest => existing :: item :: rest
  | _ => []

def Thread.held : Thread → List CartItem
  | .edit _ pc => pc.held
  | .ensure _ _ => []
  | .merge _ pc => pc.held

variable {svc : Service} {s s' : Store} {x : Call} {it : CartItem} {subtotal qty : Int}

/-! ## Statements on lines -/

theorem setQty_id {id : Nat} : (it.setQty id qty subtotal).id = it.id := by
  unfold CartItem.setQty
  split <;> rfl

theorem setQty_same {id : Nat} : SameLine (it.setQty id qty subtotal) it := by
  unfold CartItem.setQty
  split <;> exact ⟨rfl, rfl, rfl, rfl⟩

theorem updateCartItemQty_inv {id : Nat}
    (h : updateCartItemQty s id qty subtotal = .ok s') :
    0 < qty ∧ (∃ row ∈ s.cartItems, row.id = id) ∧
      s' = { s with cartItems := s.cartItems.map (CartItem.setQty id qty subtotal) } := by
  unfold updateCartItemQty at h
  split at h
  · cases h
  · rename_i row hrow
    split at h <;> cases h
    rename_i hq
    refine ⟨by omega, ⟨row, List.mem_of_find?_eq_some hrow, ?_⟩, rfl⟩
    simpa using List.find?_some hrow

theorem createCartItem_inv {item : CartItem} (h : createCartItem s item = .ok s') :
    0 < item.qty ∧ item.cartID ∈ s.carts.ids ∧ s' = { s with
      nextID := s.nextID + 1
      cartItems := s.cartItems ++ [{ item with id := s.nextID }] } := by
  unfold createCartItem at h
  split at h
  · cases h
  · split at h <;> cases h
    rename_i hq hc
    exact ⟨by omega, by simpa using hc, rfl⟩

/-- What a write does to the lines. -/
inductive LineChange (s s' : Store) : Prop where
  | same (h : s'.cartItems = s.cartItems) (hn : s.nextID ≤ s'.nextID)
  | set {id qty subtotal} (hq : 0 < qty) (hn : s'.nextID = s.nextID)
      (h : s'.cartItems = s.cartItems.map (CartItem.setQty id qty subtotal))
  | added {item : CartItem} (hq : 0 < item.qty) (hn : s'.nextID = s.nextID + 1)
      (h : s'.cartItems = s.cartItems ++ [{ item with id := s.nextID }])
  | dropped {p} (hn : s'.nextID = s.nextID) (h : s'.cartItems = s.cartItems.filter p)

theorem lineChange_of_apply {v : Write} (h : v.apply s = .ok s') : LineChange s s' := by
  cases v with
  | setLine id qty subtotal =>
    obtain ⟨hq, _, rfl⟩ := updateCartItemQty_inv h
    exact .set hq rfl rfl
  | addLine item =>
    obtain ⟨hq, _, rfl⟩ := createCartItem_inv h
    exact .added hq rfl rfl
  | dropLine id cart =>
    cases h
    exact .dropped rfl rfl
  | newCart | touch | setVoucher | transfer => exact .same (apply_cartItems rfl h) (apply_frame h).2

theorem Outcome.lines {w : Option Write} (h : Outcome s w x s') : LineChange s s' := by
  cases h with
  | done _ _ hs => exact lineChange_of_apply hs
  | refused | none => exact .same rfl le_rfl

theorem LineChange.keyed (h : LineChange s s') (hk : Keyed s) : Keyed s' := by
  cases h with
  | same h hn =>
    exact ⟨h ▸ hk.nodup, fun it hit => (hk.fresh it (h ▸ hit)).trans_le hn⟩
  | @set id qty subtotal _ hn h =>
    have hids : s'.cartItems.map CartItem.id = s.cartItems.map CartItem.id := by
      rw [h, List.map_map]
      exact List.map_congr_left fun it _ => setQty_id
    refine ⟨hids ▸ hk.nodup, fun it hit => ?_⟩
    have hid : it.id ∈ s.cartItems.map CartItem.id := hids ▸ List.mem_map_of_mem hit
    obtain ⟨row, hrow, he⟩ := List.mem_map.mp hid
    rw [hn, ← he]
    exact hk.fresh row hrow
  | @added item _ hn h =>
    refine ⟨?_, ?_⟩
    · rw [h, List.map_append, List.map_singleton]
      refine List.nodup_append.mpr ⟨hk.nodup, List.nodup_singleton _, ?_⟩
      rintro id hid _ hnew rfl
      obtain ⟨row, hrow, rfl⟩ := List.mem_map.mp hid
      exact (hk.fresh row hrow).ne (List.mem_singleton.mp hnew)
    · rw [h, hn]
      exact forall_mem_concat (Nat.lt_succ_self _) fun it hit => Nat.lt_succ_of_lt (hk.fresh it hit)
  | @dropped p hn h =>
    refine ⟨?_, fun it hit => ?_⟩
    · rw [h]
      exact hk.nodup.sublist (List.filter_sublist.map _)
    · rw [hn]
      exact hk.fresh it (List.mem_of_mem_filter (h ▸ hit))

theorem LineChange.positive (h : LineChange s s') (hp : ∀ it ∈ s.cartItems, 0 < it.qty) :
    ∀ it ∈ s'.cartItems, 0 < it.qty := by
  cases h with
  | same h _ => rwa [h]
  | set hq _ h =>
    rw [h]
    refine List.forall_mem_map.mpr fun it hit => ?_
    unfold CartItem.setQty
    split
    · exact hq
    · exact hp it hit
  | added hq _ h =>
    rw [h]
    exact forall_mem_concat hq hp
  | dropped _ h =>
    rw [h]
    exact fun it hit => hp it (List.mem_filter.mp hit).1

theorem LineChange.held (h : LineChange s s') (hh : Held s it) : Held s' it := by
  cases h with
  | same h hn => exact ⟨hh.old.trans_le hn, h ▸ hh.same⟩
  | set _ hn h =>
    refine ⟨hn ▸ hh.old, fun row hrow hid => ?_⟩
    obtain ⟨old, hold, rfl⟩ := List.mem_map.mp (h ▸ hrow)
    rw [setQty_id] at hid
    exact setQty_same.trans (hh.same old hold hid)
  | added _ hn h =>
    refine ⟨by have := hh.old; omega, fun row hrow hid => ?_⟩
    rcases List.mem_append.mp (h ▸ hrow) with hin | hin
    · exact hh.same row hin hid
    · rw [List.mem_singleton.mp hin] at hid
      exact absurd hid hh.old.ne'
  | dropped hn h =>
    exact ⟨hn ▸ hh.old, fun row hrow => hh.same row (List.mem_of_mem_filter (h ▸ hrow))⟩

theorem held_of_mem (hk : Keyed s) (h : it ∈ s.cartItems) : Held s it := by
  refine ⟨hk.fresh it h, fun row hrow hid => ?_⟩
  rw [List.inj_on_of_nodup_map hk.nodup hrow h hid]
  exact ⟨rfl, rfl, rfl, rfl⟩

/-! ## Where lines in hand come from -/

theorem edit_held {pc pc' : EditPc} (h : editStep svc s pc x = some (s', pc')) :
    ∀ it ∈ pc'.held, it ∈ pc.held ∨ it ∈ s.cartItems := by
  cases x with
  | fail err => cases pc <;> cases h <;> simp [EditPc.held, EditPc.fails]
  | ok =>
    cases pc with
    | findItem a expires =>
      simp only [editStep] at h
      split at h <;> cases h
      · rename_i item hitem
        simpa [EditPc.held] using List.mem_of_find?_eq_some hitem
      · simp [EditPc.held]
    | getItem id qty =>
      simp only [editStep] at h
      split at h <;> cases h
      · simp [EditPc.held, EditPc.fails]
      · rename_i item hitem
        simpa [EditPc.held] using List.mem_of_find?_eq_some hitem
    | addQty a expires item | createItem a expires p price | setQty item qty =>
      simp only [editStep, written] at h
      split at h <;> cases h <;> simp [EditPc.held, EditPc.fails]
    | getProduct a expires =>
      simp only [editStep] at h
      split at h
      · cases h
        simp [EditPc.held, EditPc.fails]
      · split at h <;> cases h <;> simp [EditPc.held]
    | getVariant a expires variant p =>
      simp only [editStep] at h
      split at h
      · cases h
        simp [EditPc.held, EditPc.fails]
      · split at h
        · cases h
          simp [EditPc.held, EditPc.fails]
        · split at h <;> cases h <;> simp [EditPc.held, EditPc.fails]
    | _ => cases h <;> simp [EditPc.held]

theorem nextLine_held (cart : Nat) (items : List CartItem) : (nextLine cart items).held = items := by
  cases items <;> rfl

theorem afterEnsure_held (pc : EnsurePc) : (afterEnsure pc).held = [] := by
  unfold afterEnsure
  split <;> rfl

theorem merge_held {a : MergeArgs} {pc pc' : MergePc}
    (h : mergeStep svc a s pc x = some (s', pc')) :
    ∀ it ∈ pc'.held, it ∈ pc.held ∨ it ∈ s.cartItems := by
  cases pc with
  | ensure pc =>
    obtain ⟨pc₁, _, rfl⟩ := lifted_inv h
    simp [afterEnsure_held]
  | findItem cart item rest =>
    cases x with
    | fail err =>
      cases h
      simp [MergePc.held, MergePc.fails]
    | ok =>
      simp only [mergeStep] at h
      split at h <;> cases h
      · rename_i existing hfound
        have hin := List.mem_of_find?_eq_some hfound
        intro it hit
        unfold mergeFound at hit
        split at hit
        · rcases List.mem_cons.mp hit with rfl | hit
          · exact .inr hin
          · exact .inl hit
        · rw [nextLine_held] at hit
          exact .inl (List.mem_cons_of_mem _ hit)
      · exact fun it hit => .inl hit
  | setQty cart existing item rest | createItem cart item rest =>
    cases x with
    | fail err =>
      cases h
      simp [MergePc.held, MergePc.fails]
    | ok =>
      simp only [mergeStep, written] at h
      split at h <;> cases h
      · simp [MergePc.held, MergePc.fails]
      · intro it hit
        rw [nextLine_held] at hit
        exact .inl (by simp [MergePc.held, hit])
  | listItems cart =>
    cases x with
    | fail err =>
      cases h
      simp [MergePc.held, MergePc.fails]
    | ok =>
      cases h
      intro it hit
      rw [nextLine_held] at hit
      exact .inr (List.mem_of_mem_filter ((List.mem_insertionSort _).mp hit))
  | getGuest =>
    cases x with
    | fail err =>
      cases h
      simp [MergePc.held, MergePc.fails]
    | ok =>
      simp only [mergeStep] at h
      split at h <;> cases h
      · simp [MergePc.held, MergePc.fails]
      · simp [afterEnsure_held]
  | _ => cases x <;> cases h <;> simp [MergePc.held]

theorem step_held {t t' : Thread} (h : cartStep svc s t x = some (s', t')) :
    ∀ it ∈ t'.held, it ∈ t.held ∨ it ∈ s.cartItems := by
  cases t <;> obtain ⟨pc', hs, rfl⟩ := lifted_inv h
  case edit r pc => exact edit_held hs
  case ensure tenant pc => simp [Thread.held]
  case merge a pc => exact merge_held hs

theorem start_held (r : Request) : (start svc r).held = [] := by
  cases r with
  | edit r =>
    have hparsed : ∀ {α : Type} {p : Except String α} {next : α → EditPc},
        (∀ a, (next a).held = []) → (EditPc.parsed p next).held = [] := by
      intro α p next hnext
      cases p with
      | error err => rfl
      | ok a => exact hnext a
    cases r with
    | addItem cart product variant qty | updateQty item qty =>
      simp only [start, Thread.held, editStart]
      split
      · rfl
      · exact hparsed fun _ => rfl
    | removeItem cart item | removeVoucher cart => exact hparsed fun _ => rfl
  | ensure r => rfl
  | merge r =>
    simp only [start]
    split <;> rfl

end TokoApi.Cart
