/-
# Reading a reservation back

What a client is shown of a reservation is what it is shown later on, whatever else goes on: until
the reservation is settled nothing of it changes, and then only its status and the status of its
items do.
-/
import InventoryReservation.Traffic

namespace InventoryReservation

open RowTxn ReservationService

variable {cfg : Settings} {env : Env} {d d' : Db} {x : ℕ} {r : Reservation}
  {status : ReservationStatus}

/-- A reservation with another status, all of whose items have another status. -/
def ReservationResponse.settle (c : ReservationResponse) (status : ReservationStatus)
    (itemStatus : ProviderItemStatus) : ReservationResponse :=
  { c with
    status := status
    items := c.items.map fun it => { it with providerStatus := itemStatus } }

/-- What a reservation may be shown as after it was shown once. -/
inductive ReservationResponse.Continues (c : ReservationResponse) : ReservationResponse → Prop
  | same : Continues c c
  | confirmed (hst : c.status = .pending) : Continues c (c.settle .confirmed .confirmed)
  | cancelled (hst : c.status = .pending) : Continues c (c.settle .cancelled .released)
  | expired (hst : c.status = .pending) : Continues c (c.settle .expired .released)

lemma shown_congr (hd : Static d d') (x : ℕ) (r : Reservation) :
    ReservationResponse.shown cfg d' x r = .shown cfg d x r := by
  have hitem : ReservationItemResponse.shown d' = ReservationItemResponse.shown d := by
    funext it
    simp only [ReservationItemResponse.shown, hd.providers]
  simp only [ReservationResponse.shown, hitem]

/-- A settled reservation is shown as the reservation with new statuses. -/
lemma shown_settle {skip : ReservationItem → Bool} {itemStatus : ProviderItemStatus}
    (hskip : ∀ it ∈ r.items, skip it = false) :
    ReservationResponse.shown cfg d x (r.settle skip itemStatus status) =
      (ReservationResponse.shown cfg d x r).settle status itemStatus := by
  have hitems : (r.settle skip itemStatus status).items.map (ReservationItemResponse.shown d) =
      (r.items.map (ReservationItemResponse.shown d)).map fun it =>
        { it with providerStatus := itemStatus } := by
    rw [Reservation.settle, List.map_map, List.map_map]
    refine List.map_congr_left fun it hit => ?_
    simp only [Function.comp_apply, settled, hskip it hit]
    rfl
  rw [ReservationResponse.settle, ReservationResponse.shown]
  simp only [hitems]
  rfl

/-! ### What becomes of a reservation -/

/-- What a reservation may be later on. -/
inductive Reservation.Becomes (r : Reservation) : Reservation → Prop
  | same : Becomes r r
  | confirmed (hst : r.status = .pending) : Becomes r r.confirmed
  | released {status : ReservationStatus} (hst : r.status = .pending)
      (hs : status = .cancelled ∨ status = .expired) : Becomes r (r.released status)

/-- An event leaves a reservation as it is, or it settles one that is pending. -/
lemma EventAt.becomes {out : List HttpResponse × Db} (h : EventAt d x out)
    (hr : d.reservations.get x = some r) :
    ∃ r', out.2.reservations.get x = some r' ∧ r.Becomes r' := by
  cases h with
  | frame hres => exact ⟨r, by rw [hres, hr], .same⟩
  | pay hr₀ hst hr' =>
    obtain rfl := Option.some.inj (hr₀.symm.trans hr)
    exact ⟨_, hr', .confirmed hst⟩
  | release hr₀ hst hs hr' =>
    obtain rfl := Option.some.inj (hr₀.symm.trans hr)
    exact ⟨_, hr', .released hst hs⟩

/-- A settled reservation becomes nothing else. -/
lemma Reservation.Becomes.trans {r' r'' : Reservation} (h : r.Becomes r') (h' : r'.Becomes r'') :
    r.Becomes r'' := by
  cases h with
  | same => exact h'
  | confirmed hst =>
    cases h' with
    | same => exact .confirmed hst
    | confirmed hst' => cases hst'
    | released hst' => cases hst'
  | released hst hs =>
    rcases hs with rfl | rfl <;> cases h' with
    | same => exact .released hst (by simp)
    | confirmed hst' => cases hst'
    | released hst' => cases hst'

lemma Coherent.becomes (h : Coherent d) (cfg : Settings) (es : List Event)
    (hr : d.reservations.get x = some r) :
    ∃ r', (traffic cfg d es).2.reservations.get x = some r' ∧ r.Becomes r' := by
  refine (traffic_keeps (P := fun d => ∃ r', d.reservations.get x = some r' ∧ r.Becomes r') cfg h
    ⟨r, hr, .same⟩ (fun d e hd hP => ?_) es).2
  obtain ⟨r', hr', hb⟩ := hP
  obtain ⟨r'', hr'', hb'⟩ := (hd.eventAt cfg e x).becomes hr'
  exact ⟨r'', hr'', hb.trans hb'⟩

/-- What becomes of a reservation is shown as its continuation. -/
lemma Coherent.continues (h : Coherent d) (hr : d.reservations.get x = some r) {r' : Reservation}
    (hb : r.Becomes r') :
    (ReservationResponse.shown cfg d x r).Continues (.shown cfg d x r') := by
  cases hb with
  | same => exact .same
  | confirmed hst =>
    rw [Reservation.confirmed, shown_settle fun _ _ => rfl]
    exact .confirmed hst
  | released hst hs =>
    rw [Reservation.released, shown_settle (h.not_done hr hst)]
    rcases hs with rfl | rfl
    · exact .cancelled hst
    · exact .expired hst

/-- A reservation that is shown is stored. -/
lemma stored_of_shown {c : ReservationResponse}
    (hc : (handle cfg env d (.getReservation x)).1 = .ok (.reservation c)) :
    ∃ r, d.reservations.get x = some r ∧ c = .shown cfg d x r := by
  rcases hr : d.reservations.get x with _ | r
  · rw [getReservation_of_none cfg env hr] at hc
    cases hc
  · rw [getReservation_of_some cfg env hr] at hc
    cases hc
    exact ⟨r, rfl, rfl⟩

/-- A reservation is confirmed if and only if it has an order. -/
lemma Coherent.ordered_iff (h : Coherent d) (hr : d.reservations.get x = some r) :
    d.ordered x = 1 ↔ r.status = .confirmed := by
  have hcoh := h.reservation x r hr
  unfold Db.ordered
  cases hst : r.status with
  | pending => simp [(hcoh.pending hst).1]
  | confirmed => simp [(hcoh.confirmed hst).1]
  | cancelled => simp [(hcoh.released (Or.inl hst)).1]
  | expired => simp [(hcoh.released (Or.inr hst)).1]

lemma Db.ordered_le (d : Db) (x : ℕ) : d.ordered x ≤ 1 := by
  unfold Db.ordered
  split <;> omega

/-- What a client is shown of three lamps. -/
def lampsShown : ReservationResponse where
  id := 1
  userId := "ada"
  status := .pending
  expiresAt := .aware 900000000
  items := [⟨2, 2, "partner", 3, .held, some "hold", none⟩]

end InventoryReservation
