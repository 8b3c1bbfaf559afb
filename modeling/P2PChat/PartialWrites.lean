import Mathlib.Data.List.Basic

/-- Data that are offered to a writer, and how many of them it takes: the first ones, and no more than there
are. -/
structure Offer (α : Type) where
  data : List α
  accepts : Nat
  deriving DecidableEq, Repr

namespace Offer

variable {α : Type}

def accepted (o : Offer α) : List α := o.data.take o.accepts

/-- All is taken. -/
def whole (o : Offer α) : Bool := o.data.length ≤ o.accepts

end Offer

namespace Offers

variable {α : Type} {offers : List (Offer α)}

/-- All that is offered, one offer after another. -/
def offered (offers : List (Offer α)) : List α := offers.flatMap Offer.data

def accepted (offers : List (Offer α)) : List α := offers.flatMap Offer.accepted

/-- Where the data that are taken stand among all that are offered, counted from a start. -/
def places : Nat → List (Offer α) → List Nat
  | _, [] => []
  | start, o :: offers => List.range' start o.accepted.length ++ places (start + o.data.length) offers

/-- After the first offer that is not taken as a whole nothing more is taken. -/
def stops : List (Offer α) → Bool
  | [] => true
  | o :: offers => if o.whole then stops offers else offers.all fun o => o.accepts == 0

/-- What is taken is the first part of what is offered, and stands there. -/
def InOrder (offers : List (Offer α)) : Prop :=
  ∃ n, accepted offers = (offered offers).take n ∧ places 0 offers = List.range n

theorem places_le {start place : Nat} (h : place ∈ places start offers) : start ≤ place := by
  induction offers generalizing start with
  | nil => simp [places] at h
  | cons o offers ih =>
    rcases List.mem_append.mp h with h | h
    · exact (List.mem_range'_1.mp h).1
    · have hle := ih h
      omega

theorem places_nil {start : Nat} (hne : ∀ o ∈ offers, o.data ≠ []) :
    places start offers = [] ↔ (offers.all fun o => o.accepts == 0) = true := by
  induction offers generalizing start with
  | nil => simp [places]
  | cons o offers ih =>
    have hpos := List.length_pos_iff.mpr (hne o List.mem_cons_self)
    have hrest := @ih (start + o.data.length) fun o' hmem => hne o' (List.mem_cons_of_mem o hmem)
    have hnone : List.range' start o.accepted.length = [] ↔ o.accepts = 0 := by
      simp only [Offer.accepted, List.length_take, List.range'_eq_nil_iff]
      omega
    simp only [places, List.append_eq_nil_iff, hrest, hnone, List.all_cons, Bool.and_eq_true, beq_iff_eq]

theorem accepted_nil (h : (offers.all fun o => o.accepts == 0) = true) : accepted offers = [] := by
  simp only [List.all_eq_true, beq_iff_eq] at h
  simp only [accepted, List.flatMap_eq_nil_iff]
  intro o hmem
  rw [Offer.accepted, h o hmem, List.take_zero]

/-- The places are the first ones if and only if the writer stops for good. -/
theorem places_range_iff {start : Nat} (hne : ∀ o ∈ offers, o.data ≠ []) :
    (∃ n, places start offers = List.range' start n) ↔ stops offers = true := by
  induction offers generalizing start with
  | nil => simp [places, stops]
  | cons o offers ih =>
    have hne' : ∀ o' ∈ offers, o'.data ≠ [] := fun o' hmem => hne o' (List.mem_cons_of_mem o hmem)
    rcases hwhole : o.whole with _ | _
    · have hpart : o.accepts < o.data.length := by simpa [Offer.whole] using hwhole
      have hlen : o.accepted.length = o.accepts := by
        rw [Offer.accepted, List.length_take]
        omega
      have hstops : stops (o :: offers) = offers.all fun o => o.accepts == 0 := by simp [stops, hwhole]
      rw [hstops, places, hlen, ← @places_nil _ _ (start + o.data.length) hne']
      constructor
      · rintro ⟨n, hn⟩
        -- the place after the gap would be one that was not taken
        have hlength := congrArg List.length hn
        simp only [List.length_append, List.length_range'] at hlength
        have hsplit : List.range' start n = List.range' start o.accepts ++
            List.range' (start + o.accepts) (n - o.accepts) := by
          rw [List.range'_append_1]
          congr 1
          omega
        rw [hsplit, List.append_cancel_left_eq] at hn
        rw [hn, List.range'_eq_nil_iff]
        by_contra hmore
        have hmem : start + o.accepts ∈ places (start + o.data.length) offers := by
          rw [hn, List.mem_range'_1]
          omega
        have hle := places_le hmem
        omega
      · intro hnil
        exact ⟨o.accepts, by rw [hnil, List.append_nil]⟩
    · have hall : o.data.length ≤ o.accepts := by simpa [Offer.whole] using hwhole
      have hlen : o.accepted.length = o.data.length := by
        rw [Offer.accepted, List.length_take]
        omega
      have hstops : stops (o :: offers) = stops offers := by simp [stops, hwhole]
      rw [hstops, places, hlen, ← @ih (start + o.data.length) hne']
      constructor
      · rintro ⟨n, hn⟩
        have hlength := congrArg List.length hn
        simp only [List.length_append, List.length_range'] at hlength
        have hsplit : List.range' start n = List.range' start o.data.length ++
            List.range' (start + o.data.length) (n - o.data.length) := by
          rw [List.range'_append_1]
          congr 1
          omega
        rw [hsplit, List.append_cancel_left_eq] at hn
        exact ⟨_, hn⟩
      · rintro ⟨n, hn⟩
        exact ⟨o.data.length + n, by rw [hn, List.range'_append_1]⟩

theorem accepted_take (h : stops offers = true) :
    accepted offers = (offered offers).take (accepted offers).length := by
  induction offers with
  | nil => rfl
  | cons o offers ih =>
    have hcons : accepted (o :: offers) = o.accepted ++ accepted offers := List.flatMap_cons
    have hcons' : offered (o :: offers) = o.data ++ offered offers := List.flatMap_cons
    unfold stops at h
    split at h
    next hwhole =>
      have hall : o.accepted = o.data := by
        rw [Offer.accepted, List.take_of_length_le]
        simpa [Offer.whole] using hwhole
      rw [hcons, hcons', hall, List.length_append, List.take_length_add_append, ← ih h]
    next =>
      rw [hcons, hcons', accepted_nil h, List.append_nil, Offer.accepted, List.length_take,
        List.take_append_of_le_length (Nat.min_le_right _ _), List.take_eq_take_iff]
      omega

theorem places_length {start : Nat} : (places start offers).length = (accepted offers).length := by
  induction offers generalizing start with
  | nil => rfl
  | cons o offers ih =>
    have hcons : accepted (o :: offers) = o.accepted ++ accepted offers := List.flatMap_cons
    rw [hcons, places, List.length_append, List.length_append, List.length_range', ih]

/-- What a writer takes is in order if and only if it stops for good where it does not take everything. -/
theorem inOrder_iff (hne : ∀ o ∈ offers, o.data ≠ []) : InOrder offers ↔ stops offers = true := by
  rw [← @places_range_iff _ _ 0 hne]
  constructor
  · rintro ⟨n, _, hplaces⟩
    exact ⟨n, by rw [hplaces, List.range_eq_range']⟩
  · rintro ⟨n, hn⟩
    have hlen := congrArg List.length hn
    rw [places_length, List.length_range'] at hlen
    refine ⟨n, ?_, by rw [hn, List.range_eq_range']⟩
    rw [← hlen]
    exact accepted_take ((places_range_iff hne).mp ⟨n, hn⟩)

end Offers
