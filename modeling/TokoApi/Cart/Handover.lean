import TokoApi.Cart.Merged

/-!
# The user's cart after a Merge

`Merge` extends the cart that `EnsureCart` gave it. Then it expires the cart it was
called with and hands that to the user. The two may be the same: a user can merge the
cart that is already theirs, and is left without an active cart. In every other case
the cart that `Merge` returns is the one that `EnsureCart` finds next.
-/
namespace TokoApi.Cart

open Db Lib.Rows Lib.Threads Lib.Runs

variable {svc : Service} {a : MergeArgs} {s s' s₀ : Store} {pc pc' : MergePc} {user u g : Nat}

/-! ## Carts that lead -/

/-- At most the row of the cart `g` is written. -/
structure WritesAt (g : Nat) (s s' : Store) : Prop where
  now : s'.now = s.now
  ids : s'.carts.ids = s.carts.ids
  other : ∀ k, k ≠ g → s'.carts.row k = s.carts.row k

theorem Leads.beside (h : Leads s user u) (hne : u ≠ g) (hw : WritesAt g s s')
    (hover : (s'.carts.row g).active s'.now = false) : Leads s' user u := by
  refine ⟨?_, ?_, ?_⟩
  · rw [hw.other u hne]
    exact h.owner
  · rw [hw.other u hne, hw.now]
    exact h.past
  · rw [hw.ids]
    refine newest_mono h.newest (by simp) (by rw [hw.other u hne]) ?_
    intro k hku hk
    by_cases hkg : k = g
    · subst hkg
      simp [hku, hover] at hk
    · rw [hw.other k hkg, hw.now] at hk
      exact ⟨hk, by rw [hw.other k hkg]⟩

/-- The request has got past its checks and has not failed. -/
def MergePc.entered : MergePc → Bool
  | .getGuest | .returned (.error _) => false
  | _ => true

/-- The cart expires no earlier than one that is extended at the beginning. -/
def Extended (svc : Service) (s₀ s : Store) (cart : Nat) : Prop :=
  ∃ e, (s.carts.row cart).expiresAt = some e ∧ svc.expiry s₀.now ≤ e

def Over (s : Store) (guest : Nat) : Prop :=
  ∃ e, (s.carts.row guest).expiresAt = some e ∧ e ≤ s.now

def Phase (svc : Service) (s₀ : Store) (a : MergeArgs) (s : Store) : MergePc → Prop
  | .getGuest => s.carts = s₀.carts
  | .ensure (.expires o) | .ensure (.getActive o _) => s.carts = s₀.carts ∧ o = .user a.user
  | .ensure (.createCart o _) =>
    s.carts = s₀.carts ∧ o = .user a.user ∧ getActiveCartByUser s a.user = none
  | .ensure (.touchCart cart _ _) => Leads s a.user cart
  | .ensure (.returned _) => False
  | .listItems cart | .findItem cart _ _ | .setQty cart _ _ _ | .createItem cart _ _
  | .expires cart => Leads s a.user cart
  | .touchUser cart e => Leads s a.user cart ∧ svc.expiry s₀.now ≤ e
  | .clock cart => Leads s a.user cart ∧ Extended svc s₀ s cart
  | .touchGuest cart e => (Leads s a.user cart ∧ Extended svc s₀ s cart) ∧ e ≤ s.now
  | .clearVoucher cart | .transfer cart | .returned (.ok cart) =>
    Over s a.guest ∧ (cart ≠ a.guest → Leads s a.user cart ∧ Extended svc s₀ s cart)
  | .returned (.error _) => True

structure Passing (svc : Service) (s₀ : Store) (a : MergeArgs) (s : Store) (pc : MergePc) : Prop where
  begun : s₀.now ≤ s.now
  named : pc.entered = true → a.ensureStart svc = .expires (.user a.user)
  guest : pc.entered = true → a.guest ∈ s.carts.ids
  phase : Phase svc s₀ a s pc

theorem Over.later (h : Over s g) (d : Nat) : Over { s with now := s.now + d } g := by
  obtain ⟨e, he, hle⟩ := h
  exact ⟨e, he, by dsimp only; omega⟩

theorem getActiveCartByUser_later (h : getActiveCartByUser s user = none) (d : Nat) :
    getActiveCartByUser { s with now := s.now + d } user = none := by
  have hempty := eq_nil_of_newest (Option.map_eq_none_iff.mp h)
  have hfewer : s.carts.ids.filter (fun id =>
      decide ((s.carts.row id).userID = some user) && (s.carts.row id).active (s.now + d)) = [] := by
    refine List.filter_eq_nil_iff.mpr fun id hid hp => ?_
    refine List.filter_eq_nil_iff.mp hempty id hid ?_
    rw [Bool.and_eq_true] at hp ⊢
    exact ⟨hp.1, active_earlier hp.2⟩
  simp only [getActiveCartByUser, getActiveCart, hfewer]
  rfl

theorem Passing.later (h : Passing svc s₀ a s pc) (d : Nat) :
    Passing svc s₀ a { s with now := s.now + d } pc := by
  have hbegun := h.begun
  refine ⟨by dsimp only; omega, h.named, h.guest, ?_⟩
  have hp := h.phase
  cases pc with
  | ensure pc =>
    cases pc with
    | createCart o e => exact ⟨hp.1, hp.2.1, getActiveCartByUser_later hp.2.2 d⟩
    | touchCart cart row e => exact Leads.later hp d
    | _ => exact hp
  | listItems | findItem | setQty | createItem | expires => exact Leads.later hp d
  | touchUser cart e | clock cart => exact ⟨Leads.later hp.1 d, hp.2⟩
  | touchGuest cart e => exact ⟨⟨Leads.later hp.1.1 d, hp.1.2⟩, by have := hp.2; dsimp only; omega⟩
  | clearVoucher cart | transfer cart =>
    exact ⟨Over.later hp.1 d, fun hne => ⟨(hp.2 hne).1.later d, (hp.2 hne).2⟩⟩
  | returned r =>
    cases r with
    | ok cart => exact ⟨Over.later hp.1 d, fun hne => ⟨(hp.2 hne).1.later d, (hp.2 hne).2⟩⟩
    | error err => trivial
  | getGuest => exact hp

theorem Over.not_active (h : Over s g) : (s.carts.row g).active s.now = false := by
  obtain ⟨e, he, hle⟩ := h
  simp only [Cart.active, he, Option.all_some, decide_eq_false_iff_not]
  omega

theorem Passing.closes {cart : Nat} (h : Passing svc s₀ a s pc) (hin : pc.entered = true)
    (hlead : cart ≠ a.guest → Leads s a.user cart ∧ Extended svc s₀ s cart)
    (hw : WritesAt a.guest s s') (hover : Over s' a.guest)
    (hphase : Phase svc s₀ a s' pc' = (Over s' a.guest ∧
      (cart ≠ a.guest → Leads s' a.user cart ∧ Extended svc s₀ s' cart))) :
    Passing svc s₀ a s' pc' := by
  refine ⟨hw.now ▸ h.begun, fun _ => h.named hin, fun _ => hw.ids ▸ h.guest hin, ?_⟩
  rw [hphase]
  refine ⟨hover, fun hne => ?_⟩
  obtain ⟨hl, e, he, hle⟩ := hlead hne
  exact ⟨hl.beside hne hw hover.not_active, e, by rw [hw.other cart hne]; exact he, hle⟩

theorem Passing.goes {cart : Nat} (h : Passing svc s₀ a s pc) (hin : pc.entered = true)
    (hlead : Leads s a.user cart) (hnow : s'.now = s.now) (hcarts : s'.carts = s.carts)
    (hphase : Leads s' a.user cart → Phase svc s₀ a s' pc') : Passing svc s₀ a s' pc' := by
  refine ⟨hnow ▸ h.begun, fun _ => h.named hin, fun _ => hcarts ▸ h.guest hin, hphase ⟨?_, ?_, ?_⟩⟩
  · rw [hcarts]
    exact hlead.owner
  · rw [hcarts, hnow]
    exact hlead.past
  · rw [hcarts, hnow]
    exact hlead.newest

variable {r : MergeRequest} {xs : List (Nat × Call)} {cart : Nat}

end TokoApi.Cart
