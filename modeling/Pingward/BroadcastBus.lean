import Mathlib.Data.List.Basic

/-! A broadcast channel that drops values from a receiver that lags, and tells it so. `Bus` is what its users rely on:
of every value sent since it subscribed a receiver is told, or it is told of lagging. `ring` is a channel that keeps the
newest values for the receivers, each with its place. -/

namespace Broadcast

variable {W V B : Type}

inductive Received (V : Type) where
  | pending
  | value (value : V)
  | lagged
  deriving DecidableEq, Repr

/-- A channel of the states `B` for the receivers `W`. A receiver is owed a value that was sent since it subscribed until it
is handed the value, or told that it lags. -/
structure Bus (W V B : Type) where
  subscribe : W → B → B
  leave : W → B → B
  receivers : B → Nat
  send : V → B → B
  receive : W → B → Received V × B
  Listens : B → W → Prop
  Owes : B → W → V → Prop
  listens_subscribe : ∀ bus w, Listens (subscribe w bus) w
  subscribe_of_ne : ∀ bus w other, other ≠ w → Listens bus other → Listens (subscribe w bus) other ∧
    ∀ value, Owes bus other value → Owes (subscribe w bus) other value
  leave_of_ne : ∀ bus w other, other ≠ w → Listens bus other → Listens (leave w bus) other ∧
    ∀ value, Owes bus other value → Owes (leave w bus) other value
  receivers_pos : ∀ bus w, Listens bus w → 0 < receivers bus
  send_listens : ∀ bus w sent, Listens bus w → Listens (send sent bus) w ∧ Owes (send sent bus) w sent ∧
    ∀ value, Owes bus w value → Owes (send sent bus) w value
  receive_of_ne : ∀ bus w other, other ≠ w → Listens bus other → Listens (receive w bus).2 other ∧
    ∀ value, Owes bus other value → Owes (receive w bus).2 other value
  receive_listens : ∀ bus w, Listens bus w → Listens (receive w bus).2 w
  receive_pending : ∀ bus w, Listens bus w → (receive w bus).1 = .pending → ∀ value, ¬ Owes bus w value
  receive_value : ∀ bus w got, (receive w bus).1 = .value got → ∀ value, Owes bus w value →
    value = got ∨ Owes (receive w bus).2 w value

/-! ### A ring -/

/-- All values sent, of which `capacity` are kept, and where each receiver is. -/
structure Ring (W V : Type) where
  capacity : Nat
  log : List V
  places : List (W × Nat)
  deriving DecidableEq, Repr

namespace Ring

variable [DecidableEq W] (ring : Ring W V) (w : W)

def place : Option Nat := (ring.places.find? fun entry => entry.1 = w).map Prod.snd

/-- A receiver without a place is not there. -/
def leave : Ring W V := { ring with places := ring.places.filter fun entry => entry.1 ≠ w }

/-- The receiver goes on at a place. -/
def moveTo (k : Nat) : Ring W V := { ring with places := (w, k) :: (ring.leave w).places }

/-- The next value for a receiver; one whose next value is gone goes on with the oldest that is kept. -/
def receive : Received V × Ring W V :=
  match ring.place w with
  | none => (.pending, ring)
  | some k =>
      if k + ring.capacity < ring.log.length then (.lagged, ring.moveTo w (ring.log.length - ring.capacity))
      else
        match ring.log[k]? with
        | none => (.pending, ring)
        | some value => (.value value, ring.moveTo w (k + 1))

variable {ring w} {other : W}

@[simp] theorem place_moveTo (k : Nat) : (ring.moveTo w k).place w = some k := by
  simp [place, moveTo]

theorem place_leave_of_ne (hne : other ≠ w) : (ring.leave w).place other = ring.place other := by
  unfold place leave
  rw [List.find?_filter]
  congr 2
  funext entry
  by_cases hentry : entry.1 = other
  · simp [hentry, hne]
  · simp [hentry]

theorem place_moveTo_of_ne (k : Nat) (hne : other ≠ w) : (ring.moveTo w k).place other = ring.place other := by
  calc (ring.moveTo w k).place other
      = (ring.leave w).place other := by simp [place, moveTo, hne.symm]
    _ = ring.place other := place_leave_of_ne hne

/-- The ways to receive. -/
theorem receive_cases (ring : Ring W V) (w : W) :
    ring.receive w = (.pending, ring) ∧ (∀ k, ring.place w = some k → ring.log.length ≤ k) ∨
    (∃ k, ring.place w = some k ∧
      ring.receive w = (.lagged, ring.moveTo w (ring.log.length - ring.capacity))) ∨
    ∃ k value, ring.place w = some k ∧ ring.log[k]? = some value ∧ ring.receive w = (.value value, ring.moveTo w (k + 1)) := by
  unfold receive
  cases hplace : ring.place w with
  | none => exact .inl ⟨rfl, fun k hk => by cases hk⟩
  | some k =>
      dsimp only
      split
      · exact .inr (.inl ⟨k, rfl, rfl⟩)
      · cases hvalue : ring.log[k]? with
        | none =>
            refine .inl ⟨rfl, fun k' hk => ?_⟩
            rw [← Option.some.inj hk]
            exact List.getElem?_eq_none_iff.mp hvalue
        | some value => exact .inr (.inr ⟨k, value, rfl, hvalue, rfl⟩)

/-- A receiver is there. -/
def Listens (ring : Ring W V) (w : W) : Prop := ∃ k, ring.place w = some k ∧ k ≤ ring.log.length

/-- What is still to come for a receiver. -/
def Owes (ring : Ring W V) (w : W) (value : V) : Prop := ∃ k, ring.place w = some k ∧ value ∈ ring.log.drop k

/-- Where a receiver is, and what was sent, is all that matters to it. -/
theorem of_same {ring' : Ring W V} (hplace : ring'.place w = ring.place w) (hlog : ring'.log = ring.log)
    (hlistens : ring.Listens w) : ring'.Listens w ∧ ∀ value, ring.Owes w value → ring'.Owes w value := by
  unfold Listens Owes
  rw [hplace, hlog]
  exact ⟨hlistens, fun _ howes => howes⟩

theorem receive_of_ne (hne : other ≠ w) (hlistens : ring.Listens other) :
    (ring.receive w).2.Listens other ∧ ∀ value, ring.Owes other value → (ring.receive w).2.Owes other value := by
  rcases receive_cases ring w with ⟨hreceive, -⟩ | ⟨k, -, hreceive⟩ | ⟨k, value, -, -, hreceive⟩
  · rw [hreceive]
    exact ⟨hlistens, fun _ howes => howes⟩
  · rw [hreceive]
    exact of_same (place_moveTo_of_ne _ hne) rfl hlistens
  · rw [hreceive]
    exact of_same (place_moveTo_of_ne _ hne) rfl hlistens

theorem listens_receive (hlistens : ring.Listens w) : (ring.receive w).2.Listens w := by
  rcases receive_cases ring w with ⟨hreceive, -⟩ | ⟨k, -, hreceive⟩ | ⟨k, value, -, hvalue, hreceive⟩
  · rw [hreceive]
    exact hlistens
  · rw [hreceive]
    exact ⟨_, place_moveTo _, Nat.sub_le _ _⟩
  · rw [hreceive]
    exact ⟨_, place_moveTo _, (List.getElem?_eq_some_iff.mp hvalue).1⟩

theorem send_listens (hlistens : ring.Listens w) (sent : V) :
    Listens { ring with log := ring.log ++ [sent] } w ∧ Owes { ring with log := ring.log ++ [sent] } w sent ∧
      ∀ value, ring.Owes w value → Owes { ring with log := ring.log ++ [sent] } w value := by
  obtain ⟨k, hplace, hk⟩ := hlistens
  have hdrop : (ring.log ++ [sent]).drop k = ring.log.drop k ++ [sent] := List.drop_append_of_le_length hk
  refine ⟨⟨k, hplace, ?_⟩, ⟨k, hplace, ?_⟩, ?_⟩
  · rw [List.length_append]
    exact Nat.le_add_right_of_le hk
  · rw [hdrop]
    exact List.mem_append_right _ (List.mem_singleton.mpr rfl)
  · rintro value ⟨k', hplace', hvalue⟩
    obtain rfl : k = k' := Option.some.inj (hplace.symm.trans hplace')
    refine ⟨k, hplace, ?_⟩
    rw [hdrop]
    exact List.mem_append_left _ hvalue

theorem not_owes_of_pending (hpending : (ring.receive w).1 = .pending) (value : V) : ¬ ring.Owes w value := by
  rintro ⟨k, hplace, hvalue⟩
  rcases receive_cases ring w with ⟨-, hend⟩ | ⟨k, -, hreceive⟩ | ⟨k, got, -, -, hreceive⟩
  · rw [List.drop_eq_nil_of_le (hend k hplace)] at hvalue
    cases hvalue
  · rw [hreceive] at hpending
    cases hpending
  · rw [hreceive] at hpending
    cases hpending

theorem owes_receive {got : V} (hreceived : (ring.receive w).1 = .value got) {value : V} (howes : ring.Owes w value) :
    value = got ∨ (ring.receive w).2.Owes w value := by
  rcases receive_cases ring w with ⟨hreceive, -⟩ | ⟨k, -, hreceive⟩ | ⟨k, next, hplace, hnext, hreceive⟩
  · rw [hreceive] at hreceived
    cases hreceived
  · rw [hreceive] at hreceived
    cases hreceived
  · rw [hreceive] at hreceived ⊢
    obtain rfl : next = got := Received.value.inj hreceived
    obtain ⟨k', hplace', hvalue⟩ := howes
    obtain rfl : k = k' := Option.some.inj (hplace.symm.trans hplace')
    obtain ⟨hk, rfl⟩ := List.getElem?_eq_some_iff.mp hnext
    rw [List.drop_eq_getElem_cons hk] at hvalue
    exact (List.mem_cons.mp hvalue).imp_right fun hrest => ⟨k + 1, place_moveTo _, hrest⟩

end Ring

/-- The ring, as a bus. -/
def ringBus [DecidableEq W] : Bus W V (Ring W V) where
  subscribe w ring := ring.moveTo w ring.log.length
  leave w ring := ring.leave w
  receivers ring := ring.places.length
  send value ring := { ring with log := ring.log ++ [value] }
  receive w ring := ring.receive w
  Listens := Ring.Listens
  Owes := Ring.Owes
  listens_subscribe ring w := ⟨_, Ring.place_moveTo _, Nat.le_refl _⟩
  subscribe_of_ne _ _ _ hne hlistens := Ring.of_same (Ring.place_moveTo_of_ne _ hne) rfl hlistens
  leave_of_ne _ _ _ hne hlistens := Ring.of_same (Ring.place_leave_of_ne hne) rfl hlistens
  receivers_pos ring w hlistens := by
    obtain ⟨k, hplace, -⟩ := hlistens
    cases hplaces : ring.places with
    | nil => simp [Ring.place, hplaces] at hplace
    | cons entry rest => exact Nat.succ_pos _
  send_listens _ _ sent hlistens := Ring.send_listens hlistens sent
  receive_of_ne _ _ _ hne hlistens := Ring.receive_of_ne hne hlistens
  receive_listens _ _ hlistens := Ring.listens_receive hlistens
  receive_pending _ _ _ hpending := Ring.not_owes_of_pending hpending
  receive_value _ _ _ hreceived _ howes := Ring.owes_receive hreceived howes

end Broadcast
