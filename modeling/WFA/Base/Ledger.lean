-- SUMMARY: Ledgers of amounts: one open entry for a key, and the events that change it.
import Mathlib

/-!
# Ledgers

An entry of a ledger has a key and an amount. What is added to a key goes to its
entry, or opens one; what is removed from an entry leaves some of it, or closes
it. Which number a new entry gets is left open. An entry that was closed is gone,
and the next one of its key starts from nothing.
-/

namespace WFA

structure Entry (κ : Type) where
  key : κ
  amount : Nat

abbrev Ledger (κ : Type) := Int → Option (Entry κ)

namespace Ledger

inductive Event (κ : Type) where
  | add (key : κ) (n : Nat)
  | remove (id : Int) (n : Nat)
  /-- Nothing happens to the ledger. -/
  | idle

variable {κ : Type}

/-- What an event may do. -/
inductive Step (ledger : Ledger κ) : Event κ → Ledger κ → Prop
  | opened {key : κ} {n : Nat} {id : Int} : ledger id = none →
      (∀ other entry, ledger other = some entry → entry.key ≠ key) →
      Step ledger (.add key n) (Function.update ledger id (some ⟨key, n⟩))
  | added {n : Nat} {id : Int} {entry : Entry κ} : ledger id = some entry →
      Step ledger (.add entry.key n)
        (Function.update ledger id (some ⟨entry.key, entry.amount + n⟩))
  | closed {n : Nat} {id : Int} {entry : Entry κ} : ledger id = some entry → entry.amount ≤ n →
      Step ledger (.remove id n) (Function.update ledger id none)
  | taken {n : Nat} {id : Int} {entry : Entry κ} : ledger id = some entry → n < entry.amount →
      Step ledger (.remove id n)
        (Function.update ledger id (some ⟨entry.key, entry.amount - n⟩))
  | idle : Step ledger .idle ledger

/-- A key has one entry at most, and no entry is empty. -/
structure Sound (ledger : Ledger κ) : Prop where
  unique : ∀ {id other : Int} {entry found : Entry κ}, ledger id = some entry →
    ledger other = some found → entry.key = found.key → id = other
  positive : ∀ {id : Int} {entry : Entry κ}, ledger id = some entry → 1 ≤ entry.amount

/-- What is added is not nothing. -/
def Event.Proper : Event κ → Prop
  | .add _ n => 1 ≤ n
  | _ => True

section Steps

variable {ledger ledger' : Ledger κ} {event : Event κ}

/-- An entry after one place of the ledger was written. -/
theorem update_eq_some {id other : Int} {written : Option (Entry κ)} {found : Entry κ}
    (h : Function.update ledger id written other = some found) :
    other = id ∧ written = some found ∨ other ≠ id ∧ ledger other = some found := by
  by_cases hid : other = id
  · subst hid
    rw [Function.update_self] at h
    exact .inl ⟨rfl, h⟩
  · rw [Function.update_of_ne hid] at h
    exact .inr ⟨hid, h⟩

theorem sound_empty : Sound (fun _ => none : Ledger κ) where
  unique h := by cases h
  positive h := by cases h

/-- An entry gets another amount. -/
theorem Sound.update (h : Sound ledger) {id : Int} {entry : Entry κ}
    (hentry : ledger id = some entry) {n : Nat} (hn : 1 ≤ n) :
    Sound (Function.update ledger id (some ⟨entry.key, n⟩)) := by
  have hbefore : ∀ {other : Int} {found : Entry κ},
      Function.update ledger id (some ⟨entry.key, n⟩) other = some found →
      ∃ before, ledger other = some before ∧ before.key = found.key := by
    intro other found hfound
    obtain ⟨rfl, hwritten⟩ | ⟨-, hold⟩ := update_eq_some hfound
    · obtain rfl := Option.some.inj hwritten
      exact ⟨entry, hentry, rfl⟩
    · exact ⟨found, hold, rfl⟩
  refine { unique := ?_, positive := ?_ }
  · intro one other first second hfirst hsecond hkey
    obtain ⟨before, hfirst, hkeyFirst⟩ := hbefore hfirst
    obtain ⟨before', hsecond, hkeySecond⟩ := hbefore hsecond
    exact h.unique hfirst hsecond (hkeyFirst.trans (hkey.trans hkeySecond.symm))
  · intro other found hfound
    obtain ⟨-, hwritten⟩ | ⟨-, hold⟩ := update_eq_some hfound
    · obtain rfl := Option.some.inj hwritten
      exact hn
    · exact h.positive hold

/-- An entry is opened for a key that has none. -/
theorem Sound.open (h : Sound ledger) {key : κ} {n : Nat} (id : Int)
    (hnew : ∀ other entry, ledger other = some entry → entry.key ≠ key) (hn : 1 ≤ n) :
    Sound (Function.update ledger id (some ⟨key, n⟩)) := by
  refine { unique := ?_, positive := ?_ }
  · intro one other first second hfirst hsecond hkey
    obtain ⟨rfl, hwritten⟩ | ⟨-, hone⟩ := update_eq_some hfirst
    · obtain rfl := Option.some.inj hwritten
      obtain ⟨rfl, -⟩ | ⟨-, hother⟩ := update_eq_some hsecond
      · rfl
      · exact absurd hkey.symm (hnew other second hother)
    · obtain ⟨rfl, hwritten⟩ | ⟨-, hother⟩ := update_eq_some hsecond
      · obtain rfl := Option.some.inj hwritten
        exact absurd hkey (hnew one first hone)
      · exact h.unique hone hother hkey
  · intro other found hfound
    obtain ⟨-, hwritten⟩ | ⟨-, hold⟩ := update_eq_some hfound
    · obtain rfl := Option.some.inj hwritten
      exact hn
    · exact h.positive hold

/-- An entry is closed. -/
theorem Sound.close (h : Sound ledger) (id : Int) : Sound (Function.update ledger id none) := by
  have hbefore : ∀ {other : Int} {found : Entry κ},
      Function.update ledger id none other = some found → ledger other = some found := by
    intro other found hfound
    obtain ⟨-, hwritten⟩ | ⟨-, hold⟩ := update_eq_some hfound
    · cases hwritten
    · exact hold
  exact { unique := fun hfirst hsecond hkey => h.unique (hbefore hfirst) (hbefore hsecond) hkey
          positive := fun hfound => h.positive (hbefore hfound) }

theorem Step.sound (h : Step ledger event ledger') (hsound : Sound ledger)
    (hproper : event.Proper) : Sound ledger' := by
  cases h with
  | opened _ hnew => exact hsound.open _ hnew hproper
  | added hentry =>
    have := hsound.positive hentry
    exact hsound.update hentry (by omega)
  | closed _ _ => exact hsound.close _
  | taken hentry hlt => exact hsound.update hentry (by omega)
  | idle => exact hsound

/-! ## Sums -/

/-- What the events add to a key. -/
def sumAdded [DecidableEq κ] (key : κ) : List (Event κ) → Nat
  | [] => 0
  | .add other n :: events => (if other = key then n else 0) + sumAdded key events
  | _ :: events => sumAdded key events

/-- What the events remove from an entry. -/
def sumRemoved (id : Int) : List (Event κ) → Nat
  | [] => 0
  | .remove other n :: events => (if other = id then n else 0) + sumRemoved id events
  | _ :: events => sumRemoved id events

theorem sumRemoved_append (id : Int) (events more : List (Event κ)) :
    sumRemoved id (events ++ more) = sumRemoved id events + sumRemoved id more := by
  induction events with
  | nil => simp [sumRemoved]
  | cons event events ih =>
    cases event with
    | add other n => exact ih
    | remove other n =>
      simp only [List.cons_append, sumRemoved, ih]
      omega
    | idle => exact ih

variable [DecidableEq κ]

theorem sumAdded_append (key : κ) (events more : List (Event κ)) :
    sumAdded key (events ++ more) = sumAdded key events + sumAdded key more := by
  induction events with
  | nil => simp [sumAdded]
  | cons event events ih =>
    cases event with
    | add other n =>
      simp only [List.cons_append, sumAdded, ih]
      omega
    | remove other n => exact ih
    | idle => exact ih

/-- An entry that an event opens has what the event adds. -/
theorem Step.sum_opened (h : Step ledger event ledger') {id : Int} {entry : Entry κ}
    (hnone : ledger id = none) (hentry : ledger' id = some entry) :
    entry.amount + sumRemoved id [event] = sumAdded entry.key [event] := by
  -- only an entry that was there can be changed
  have hkept : ∀ {other : Int} {found : Entry κ} {written : Option (Entry κ)},
      ledger other = some found → Function.update ledger other written id ≠ some entry := by
    intro other found written hfound hafter
    obtain ⟨rfl, -⟩ | ⟨-, hold⟩ := update_eq_some hafter
    · simp [hnone] at hfound
    · simp [hnone] at hold
  cases h with
  | opened _ _ =>
    obtain ⟨rfl, hwritten⟩ | ⟨-, hold⟩ := update_eq_some hentry
    · obtain rfl := Option.some.inj hwritten
      simp [sumAdded, sumRemoved]
    · simp [hnone] at hold
  | added hfound => exact absurd hentry (hkept hfound)
  | closed hfound _ => exact absurd hentry (hkept hfound)
  | taken hfound _ => exact absurd hentry (hkept hfound)
  | idle => simp [hnone] at hentry

/-- An entry that is still there changed by what the event adds to its key and
removes from it. -/
theorem Step.sum_kept (h : Step ledger event ledger') (hsound : Sound ledger) {id : Int}
    {entry entry' : Entry κ} (hbefore : ledger id = some entry) (hafter : ledger' id = some entry') :
    entry'.key = entry.key ∧
      entry'.amount + sumRemoved id [event] = entry.amount + sumAdded entry.key [event] := by
  cases h with
  | opened hnone hkeys =>
    obtain ⟨rfl, -⟩ | ⟨-, hold⟩ := update_eq_some hafter
    · simp [hbefore] at hnone
    · obtain rfl := Option.some.inj (hbefore.symm.trans hold)
      simp [sumAdded, sumRemoved, (hkeys id entry hbefore).symm]
  | added hfound =>
    obtain ⟨rfl, hwritten⟩ | ⟨hne, hold⟩ := update_eq_some hafter
    · obtain rfl := Option.some.inj (hbefore.symm.trans hfound)
      obtain rfl := Option.some.inj hwritten
      simp [sumAdded, sumRemoved]
    · obtain rfl := Option.some.inj (hbefore.symm.trans hold)
      have hkey := mt (hsound.unique hbefore hfound) hne
      simp [sumAdded, sumRemoved, Ne.symm hkey]
  | closed hfound _ =>
    obtain ⟨-, hwritten⟩ | ⟨hne, hold⟩ := update_eq_some hafter
    · cases hwritten
    · obtain rfl := Option.some.inj (hbefore.symm.trans hold)
      simp [sumAdded, sumRemoved, hne.symm]
  | taken hfound hlt =>
    obtain ⟨rfl, hwritten⟩ | ⟨hne, hold⟩ := update_eq_some hafter
    · obtain rfl := Option.some.inj (hbefore.symm.trans hfound)
      obtain rfl := Option.some.inj hwritten
      simp only [sumAdded, sumRemoved, if_true, true_and]
      omega
    · obtain rfl := Option.some.inj (hbefore.symm.trans hold)
      simp [sumAdded, sumRemoved, hne.symm]
  | idle =>
    obtain rfl := Option.some.inj (hbefore.symm.trans hafter)
    simp [sumAdded, sumRemoved]

end Steps

end Ledger

end WFA
