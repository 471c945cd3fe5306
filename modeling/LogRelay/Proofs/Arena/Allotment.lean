import LogRelay.Proofs.Arena.Slab
import LogRelay.Proofs.Checked.Arena

/-!
# How a request for a slot is decided

Whether a slot is granted depends on little of what happened before: on how many slots are
out, and on the bytes set aside under the bump policy.  Which index a slab grants depends on
all of it, in the order in which it happened: on the indices that came back and did not go
out again, the last one first, and only if there are none on those that never went out.
-/

namespace LogRelay.Arena

/-! ## Indices that go out and come back -/

/-- What happens to an index of a slab. -/
inductive Move where
  | out (index : Nat)
  | back (index : Nat)
  deriving Repr, DecidableEq

namespace Move

/-- `index` came back and did not go out again; `later` are the moves made since.  Of the
moves the latest comes first. -/
def Returned (moves : List Move) (index : Nat) (later : List Move) : Prop :=
  out index ∉ later ∧ ∃ earlier, moves = later ++ back index :: earlier

/-- The index that is due to go out: the last one to have come back and not gone out again,
or when there is none the lowest that never went out. -/
def Due (moves : List Move) (index : Nat) : Prop :=
  (∃ later, Returned moves index later ∧
      ∀ other since, Returned moves other since → later.length ≤ since.length) ∨
    (∀ other since, ¬Returned moves other since) ∧
      out index ∉ moves ∧ ∀ lower < index, out lower ∈ moves

/-- The indices that came back and did not go out again, the last one first. -/
def returned : List Move → List Nat
  | [] => []
  | back index :: earlier => index :: returned earlier
  | out index :: earlier => (returned earlier).filter (· ≠ index)

variable {moves later : List Move} {index : Nat}

theorem Returned.nil_iff : Returned moves index [] ↔ ∃ earlier, moves = back index :: earlier := by
  simp only [Returned, List.not_mem_nil, not_false_eq_true, true_and, List.nil_append]

theorem Returned.cons_iff {move latest : Move} :
    Returned (move :: moves) index (latest :: later) ↔
      latest = move ∧ move ≠ out index ∧ Returned moves index later := by
  simp only [Returned, List.mem_cons, not_or, List.cons_append, List.cons.injEq]
  constructor
  · rintro ⟨⟨hmove, hlater⟩, earlier, rfl, hmoves⟩
    exact ⟨rfl, fun heq => hmove heq.symm, hlater, earlier, hmoves⟩
  · rintro ⟨rfl, hmove, hlater, earlier, hmoves⟩
    exact ⟨⟨fun heq => hmove heq.symm, hlater⟩, earlier, rfl, hmoves⟩

theorem Returned.mem (hreturned : Returned moves index later) : index ∈ returned moves := by
  induction moves generalizing later with
  | nil =>
    obtain ⟨-, earlier, heq⟩ := hreturned
    simp at heq
  | cons move moves ih =>
    cases later with
    | nil =>
      obtain ⟨earlier, heq⟩ := Returned.nil_iff.mp hreturned
      obtain ⟨rfl, rfl⟩ := List.cons.inj heq
      exact List.mem_cons_self
    | cons latest later =>
      obtain ⟨-, hmove, hbefore⟩ := Returned.cons_iff.mp hreturned
      have hmem := ih hbefore
      cases move with
      | back other => exact List.mem_cons_of_mem other hmem
      | out other =>
        refine List.mem_filter.mpr ⟨hmem, decide_eq_true ?_⟩
        rintro rfl
        exact hmove rfl

/-- Of the indices that are not `gone` the first in the list came back last. -/
theorem returned_of_filter_eq_cons {gone rest : List Nat}
    (hfirst : (returned moves).filter (· ∉ gone) = index :: rest) :
    ∃ later, Returned moves index later ∧
      ∀ other since, other ∉ gone → Returned moves other since → later.length ≤ since.length := by
  induction moves generalizing gone with
  | nil => simp [returned] at hfirst
  | cons move moves ih =>
    cases move with
    | back latest =>
      by_cases hlatest : latest ∈ gone
      · rw [returned, List.filter_cons_of_neg (by simpa using hlatest)] at hfirst
        obtain ⟨later, hreturned, hleast⟩ := ih hfirst
        refine ⟨back latest :: later, ?_, ?_⟩
        · exact Returned.cons_iff.mpr ⟨rfl, by simp, hreturned⟩
        · intro other since hother hsince
          cases since with
          | nil =>
            obtain ⟨earlier, heq⟩ := Returned.nil_iff.mp hsince
            obtain ⟨hsame, -⟩ := List.cons.inj heq
            obtain rfl := Move.back.inj hsame
            exact absurd hlatest hother
          | cons first since =>
            obtain ⟨-, -, hbefore⟩ := Returned.cons_iff.mp hsince
            exact Nat.succ_le_succ (hleast other since hother hbefore)
      · rw [returned, List.filter_cons_of_pos (by simpa using hlatest)] at hfirst
        obtain ⟨rfl, -⟩ := List.cons.inj hfirst
        exact ⟨[], Returned.nil_iff.mpr ⟨moves, rfl⟩, fun _ _ _ _ => Nat.zero_le _⟩
    | out latest =>
      have hgone : ((returned moves).filter (· ∉ latest :: gone)) = index :: rest := by
        rw [← hfirst, returned, List.filter_filter]
        apply List.filter_congr
        intro other _
        simp [Bool.and_comm]
      obtain ⟨later, hreturned, hleast⟩ := ih hgone
      have hindex : index ≠ latest := by
        have hmem : index ∈ (returned moves).filter (· ∉ latest :: gone) := by
          rw [hgone]
          exact List.mem_cons_self
        have hkept := of_decide_eq_true (List.mem_filter.mp hmem).2
        exact List.ne_of_not_mem_cons hkept
      refine ⟨out latest :: later, ?_, ?_⟩
      · exact Returned.cons_iff.mpr ⟨rfl, by simpa using hindex.symm, hreturned⟩
      · intro other since hother hsince
        cases since with
        | nil =>
          obtain ⟨earlier, heq⟩ := Returned.nil_iff.mp hsince
          simp at heq
        | cons first since =>
          obtain ⟨-, hmove, hbefore⟩ := Returned.cons_iff.mp hsince
          have hstill : other ∉ latest :: gone := by
            simpa [hother] using fun heq : other = latest => hmove (by rw [heq])
          exact Nat.succ_le_succ (hleast other since hstill hbefore)

end Move

open Move

/-- The free indices of a slab of `count` slots after `moves`: those that came back on top of
those that never went out, which are the ones from `fresh` on. -/
structure Stacked (count : Nat) (moves : List Move) (freeSlots : List Nat) (fresh : Nat) :
    Prop where
  freeSlots_eq : freeSlots = returned moves ++ List.range' fresh (count - fresh)
  returned_lt : ∀ index ∈ returned moves, index < fresh
  out_iff : ∀ index, out index ∈ moves ↔ index < fresh

namespace Stacked

variable {count fresh index : Nat} {moves : List Move} {freeSlots : List Nat}

theorem new (count : Nat) : Stacked count [] (List.range count) 0 where
  freeSlots_eq := by rw [returned, List.nil_append, Nat.sub_zero, List.range_eq_range']
  returned_lt _ hindex := absurd hindex List.not_mem_nil
  out_iff index := by simp

theorem back (hstacked : Stacked count moves freeSlots fresh) (hindex : index < fresh) :
    Stacked count (.back index :: moves) (index :: freeSlots) fresh where
  freeSlots_eq := by rw [returned, hstacked.freeSlots_eq, List.cons_append]
  returned_lt := List.forall_mem_cons.mpr ⟨hindex, hstacked.returned_lt⟩
  out_iff other := by simp [hstacked.out_iff]

theorem out (hstacked : Stacked count moves (index :: freeSlots) fresh)
    (hnodup : (index :: freeSlots).Nodup) :
    ∃ after, Stacked count (.out index :: moves) freeSlots after := by
  obtain ⟨hfree, hlt, hout⟩ := hstacked
  cases hreturned : returned moves with
  | nil =>
    -- Nothing came back, so that a fresh index goes out.
    rw [hreturned, List.nil_append] at hfree
    cases hroom : count - fresh with
    | zero => simp [hroom] at hfree
    | succ room =>
      rw [hroom, List.range'_succ] at hfree
      obtain ⟨rfl, rfl⟩ := List.cons.inj hfree
      refine ⟨index + 1, ?_, ?_, ?_⟩
      · rw [returned, hreturned, List.filter_nil, List.nil_append, Nat.sub_add_eq, hroom,
          Nat.add_sub_cancel]
      · simp [returned, hreturned]
      · intro other
        simp only [List.mem_cons, Move.out.injEq, hout, Nat.lt_succ_iff_lt_or_eq, or_comm]
  | cons first more =>
    rw [hreturned, List.cons_append] at hfree
    obtain ⟨rfl, rfl⟩ := List.cons.inj hfree
    rw [hreturned] at hlt
    obtain ⟨hindex, hmore⟩ := List.forall_mem_cons.mp hlt
    have hrest : returned (.out index :: moves) = more := by
      rw [returned, hreturned, List.filter_cons_of_neg (by simp), List.filter_eq_self]
      intro other hother
      have hfresh := (List.nodup_cons.mp hnodup).1
      refine decide_eq_true ?_
      rintro rfl
      exact hfresh (List.mem_append_left _ hother)
    refine ⟨fresh, ?_, ?_, ?_⟩
    · rw [hrest]
    · rw [hrest]
      exact hmore
    · intro other
      simp only [List.mem_cons, Move.out.injEq, hout, or_iff_right_iff_imp]
      rintro rfl
      exact hindex

/-- The free index on top is the one that is due. -/
theorem due (hstacked : Stacked count moves (index :: freeSlots) fresh) : Due moves index := by
  obtain ⟨hfree, -, hout⟩ := hstacked
  cases hreturned : returned moves with
  | nil =>
    rw [hreturned, List.nil_append] at hfree
    have hindex : index = fresh := by
      cases hroom : count - fresh with
      | zero => simp [hroom] at hfree
      | succ room =>
        rw [hroom, List.range'_succ] at hfree
        exact (List.cons.inj hfree).1
    refine Or.inr ⟨?_, ?_, ?_⟩
    · intro other since hback
      have hmem := hback.mem
      rw [hreturned] at hmem
      exact List.not_mem_nil hmem
    · rw [hout, hindex]
      exact Nat.lt_irrefl fresh
    · intro lower hlower
      rw [hout, ← hindex]
      exact hlower
  | cons first more =>
    rw [hreturned, List.cons_append] at hfree
    obtain ⟨rfl, -⟩ := List.cons.inj hfree
    have hfirst : (returned moves).filter (· ∉ ([] : List Nat)) = index :: more := by
      rw [hreturned]
      simp
    obtain ⟨later, hback, hleast⟩ := returned_of_filter_eq_cons hfirst
    exact Or.inl ⟨later, hback, fun other since => hleast other since List.not_mem_nil⟩

end Stacked

namespace Session

/-! ## The moves of a run -/

/-- The moves after a step, given those before it.  A reset makes them forgotten. -/
def moved (slotSize : Nat) (session : Session) (moves : List Move) : Step → List Move
  | .allocate length =>
    match session.arena.allocate length with
    | .error _ => moves
    | .ok (slot, _) => .out (slot.index slotSize) :: moves
  | .free number =>
    match session.slots.get? number with
    | none => moves
    | some slot => .back (slot.index slotSize) :: moves
  | .reset => if session.arena.reset.2 then [] else moves
  | .fill _ _ | .write _ _ _ | .read _ | .describe | .describeSlot _ => moves

def movesFrom (slotSize : Nat) (moves : List Move) : Session → List Step → List Move
  | _, [] => moves
  | session, step :: rest =>
    movesFrom slotSize (session.moved slotSize moves step) (session.step step).1 rest

variable {session : Session} {slotSize fresh : Nat} {moves : List Move}

/-- An index that is held went out, since only those that never did and those that came back
are free. -/
theorem index_lt_fresh {slot : Slot} (hpolicy : session.arena.policy = .slab slotSize)
    (hholds : session.arena.Holds session.slots.toList)
    (hstacked : Stacked (session.arena.capacity / slotSize) moves session.arena.freeSlots fresh)
    (hslot : slot ∈ session.slots.toList) : slot.index slotSize < fresh := by
  have hplaced := hholds.slabPlaced hpolicy
  have hnodup := hplaced.indices.nodup_iff.mpr List.nodup_range
  have htaken : slot.index slotSize ∉ session.arena.freeSlots := fun hfree =>
    (List.nodup_append.mp hnodup).2.2 _ hfree _ (List.mem_map_of_mem hslot) rfl
  apply Nat.lt_of_not_le
  intro hfresh
  apply htaken
  rw [hstacked.freeSlots_eq]
  apply List.mem_append_right
  have hindex := hplaced.index_lt hslot
  exact List.mem_range'_1.mpr ⟨hfresh, by omega⟩

theorem stacked_step (hpolicy : session.arena.policy = .slab slotSize)
    (hholds : session.arena.Holds session.slots.toList)
    (hstacked : Stacked (session.arena.capacity / slotSize) moves session.arena.freeSlots fresh)
    (step : Step) :
    ∃ after, Stacked (session.arena.capacity / slotSize) (session.moved slotSize moves step)
      (session.step step).1.arena.freeSlots after := by
  have hplaced := hholds.slabPlaced hpolicy
  cases step with
  | allocate length =>
    cases hallocate : session.arena.allocate length with
    | error cause =>
      simp only [moved, Session.step, hallocate]
      exact ⟨fresh, hstacked⟩
    | ok granted =>
      obtain ⟨slot, arena⟩ := granted
      obtain ⟨-, cursor, freeSlots, hplace, rfl⟩ := allocate_eq_ok hallocate
      obtain ⟨-, index, hfree, rfl⟩ := place_slab_eq_ok hpolicy hplace
      have hindex : index * slotSize / slotSize = index :=
        Nat.mul_div_cancel index hplaced.size_pos
      simp only [moved, Session.step, hallocate, Slot.index, hindex]
      have hnodup := hplaced.nodup_freeSlots
      rw [hfree] at hstacked hnodup
      exact hstacked.out hnodup
  | free number =>
    cases hslot : session.slots.get? number with
    | none =>
      simp only [moved, Session.step, hslot]
      exact ⟨fresh, hstacked⟩
    | some slot =>
      have hmem := Numbered.mem_toList_of_get?_eq_some hslot
      simp only [moved, Session.step, hslot, freeSlots_free_slab hpolicy]
      exact ⟨fresh, hstacked.back (index_lt_fresh hpolicy hholds hstacked hmem)⟩
  | reset =>
    by_cases hlive : session.arena.live = 0
    · simp only [moved, Session.step, reset, if_pos hlive, if_true, allSlots, hpolicy, slotCount]
      exact ⟨0, Stacked.new _⟩
    · simp only [moved, Session.step, reset, if_neg hlive]
      exact ⟨fresh, hstacked⟩
  | fill number byte | write number start bytes | read number | describeSlot number =>
    simp only [moved, Session.step]
    cases session.slots.get? number with
    | none | some slot => exact ⟨fresh, hstacked⟩
  | describe => exact ⟨fresh, hstacked⟩

theorem stacked_run (hpolicy : session.arena.policy = .slab slotSize)
    (hholds : session.arena.Holds session.slots.toList)
    (hstacked : Stacked (session.arena.capacity / slotSize) moves session.arena.freeSlots fresh)
    (steps : List Step) :
    ∃ after, Stacked (session.arena.capacity / slotSize) (session.movesFrom slotSize moves steps)
      (session.run steps).arena.freeSlots after := by
  induction steps generalizing session moves fresh with
  | nil => exact ⟨fresh, hstacked⟩
  | cons step rest ih =>
    obtain ⟨after, hnext⟩ := stacked_step hpolicy hholds hstacked step
    rw [← (limits_step session step).1] at hnext ⊢
    exact ih ((policy_step session step).trans hpolicy) (holds_run hholds [step]) hnext

/-! ## What is decided -/

def grant (session : Session) (length : Nat) : Answer :=
  (session.step (.allocate length)).2

/-- No slot that is held lies at `index`. -/
def FreeIndex (session : Session) (slotSize index : Nat) : Prop :=
  index < session.arena.capacity / slotSize ∧
    ∀ slot ∈ session.slots.toList, slot.index slotSize ≠ index

/-- How a request for a slot is decided, given the moves made on a slab since it was new or
reset. -/
structure Decided (capacity maxInFlight : Nat) (policy : Policy) (moves : Nat → List Move)
    (session : Session) : Prop where
  live_le : session.arena.live ≤ maxInFlight
  /-- The limit on live slots comes before everything else that is against the request. -/
  limited : session.arena.live = maxInFlight → ∀ length,
    session.grant length = .refused (.tooManyInFlight maxInFlight)
  bump : policy = .bump → session.arena.live < maxInFlight → ∀ length,
    (session.grant length = .refused .arenaFull ↔
        capacity - session.arena.usedBytes < length) ∧
      (length ≤ capacity - session.arena.usedBytes → ∃ number,
        session.grant length = .allocated number ⟨session.arena.usedBytes, length, length⟩)
  slab : ∀ slotSize, policy = .slab slotSize → session.arena.live < maxInFlight → ∀ length,
    (session.grant length = .refused (.slotTooSmall length slotSize) ↔ slotSize < length) ∧
      (length ≤ slotSize →
        (session.grant length = .refused .arenaFull ↔ ∀ index, ¬session.FreeIndex slotSize index) ∧
          ((∃ index, session.FreeIndex slotSize index) → ∃ number index,
            session.FreeIndex slotSize index ∧ Due (moves slotSize) index ∧
              session.grant length = .allocated number ⟨index * slotSize, length, slotSize⟩))
  refused : ∀ length cause, session.grant length = .refused cause →
    (session.step (.allocate length)).1 = session
  /-- No sum, difference or product leaves the range of a word. -/
  checked : ∀ length, session.arena.allocate? length = some (session.arena.allocate length)

theorem freeIndex_iff {index : Nat} (hpolicy : session.arena.policy = .slab slotSize)
    (hholds : session.arena.Holds session.slots.toList) :
    session.FreeIndex slotSize index ↔ index ∈ session.arena.freeSlots := by
  have hindices := (hholds.slabPlaced hpolicy).indices
  have hnodup := hindices.nodup_iff.mpr List.nodup_range
  constructor
  · rintro ⟨hindex, hheld⟩
    rcases List.mem_append.mp (hindices.mem_iff.mpr (List.mem_range.mpr hindex)) with hfree | htaken
    · exact hfree
    · obtain ⟨slot, hslot, heq⟩ := List.mem_map.mp htaken
      exact absurd heq (hheld slot hslot)
  · intro hfree
    refine ⟨List.mem_range.mp (hindices.mem_iff.mp (List.mem_append_left _ hfree)), ?_⟩
    rintro slot hslot heq
    exact (List.nodup_append.mp hnodup).2.2 _ hfree _ (List.mem_map_of_mem hslot) heq.symm

variable {length : Nat}

theorem grant_of_error {cause : Exhaustion}
    (hlive : session.arena.live < session.arena.maxInFlight)
    (hplace : session.arena.place length = .error cause) :
    session.grant length = .refused cause := by
  simp only [grant, Session.step, Arena.allocate, if_neg (Nat.not_le_of_lt hlive), hplace]

theorem grant_of_ok {slot : Slot} {cursor : Nat} {freeSlots : List Nat}
    (hlive : session.arena.live < session.arena.maxInFlight)
    (hplace : session.arena.place length = .ok (slot, cursor, freeSlots)) :
    ∃ number, session.grant length = .allocated number slot := by
  simp only [grant, Session.step, Arena.allocate, if_neg (Nat.not_le_of_lt hlive), hplace]
  exact ⟨_, rfl⟩

theorem grant_bump (hpolicy : session.arena.policy = .bump)
    (hlive : session.arena.live < session.arena.maxInFlight) (length : Nat) :
    (session.grant length = .refused .arenaFull ↔
        session.arena.capacity - session.arena.usedBytes < length) ∧
      (length ≤ session.arena.capacity - session.arena.usedBytes → ∃ number,
        session.grant length = .allocated number ⟨session.arena.usedBytes, length, length⟩) := by
  have hused : session.arena.usedBytes = session.arena.cursor := by simp only [usedBytes, hpolicy]
  rw [hused]
  by_cases hroom : session.arena.capacity - session.arena.cursor < length
  · have hplace : session.arena.place length = .error .arenaFull := by
      simp only [place, hpolicy, if_pos hroom]
    have hgrant := grant_of_error hlive hplace
    exact ⟨iff_of_true hgrant hroom, fun hfits => absurd hroom (Nat.not_lt_of_le hfits)⟩
  · have hplace : session.arena.place length = .ok (⟨session.arena.cursor, length, length⟩,
        session.arena.cursor + length, session.arena.freeSlots) := by
      simp only [place, hpolicy, if_neg hroom]
    obtain ⟨number, hgrant⟩ := grant_of_ok hlive hplace
    refine ⟨iff_of_false ?_ hroom, fun _ => ⟨number, hgrant⟩⟩
    rw [hgrant]
    exact Answer.noConfusion

theorem grant_slab (hpolicy : session.arena.policy = .slab slotSize)
    (hholds : session.arena.Holds session.slots.toList)
    (hstacked : Stacked (session.arena.capacity / slotSize) moves session.arena.freeSlots fresh)
    (hlive : session.arena.live < session.arena.maxInFlight) (length : Nat) :
    (session.grant length = .refused (.slotTooSmall length slotSize) ↔ slotSize < length) ∧
      (length ≤ slotSize →
        (session.grant length = .refused .arenaFull ↔ ∀ index, ¬session.FreeIndex slotSize index) ∧
          ((∃ index, session.FreeIndex slotSize index) → ∃ number index,
            session.FreeIndex slotSize index ∧ Due moves index ∧
              session.grant length = .allocated number ⟨index * slotSize, length, slotSize⟩)) := by
  simp only [freeIndex_iff hpolicy hholds]
  by_cases hsize : slotSize < length
  · have hplace : session.arena.place length = .error (.slotTooSmall length slotSize) := by
      simp only [place, hpolicy, if_pos hsize]
    have hgrant := grant_of_error hlive hplace
    exact ⟨iff_of_true hgrant hsize, fun hfits => absurd hsize (Nat.not_lt_of_le hfits)⟩
  · cases hfree : session.arena.freeSlots with
    | nil =>
      have hplace : session.arena.place length = .error .arenaFull := by
        simp only [place, hpolicy, if_neg hsize, hfree]
      have hgrant := grant_of_error hlive hplace
      refine ⟨iff_of_false ?_ hsize, fun _ => ⟨iff_of_true hgrant (by simp), by simp⟩⟩
      rw [hgrant]
      simp
    | cons index rest =>
      have hplace : session.arena.place length = .ok (⟨index * slotSize, length, slotSize⟩,
          session.arena.cursor, rest) := by
        simp only [place, hpolicy, if_neg hsize, hfree]
      obtain ⟨number, hgrant⟩ := grant_of_ok hlive hplace
      rw [hfree] at hstacked
      refine ⟨iff_of_false ?_ hsize, fun _ => ⟨iff_of_false ?_ ?_, fun _ => ?_⟩⟩
      · rw [hgrant]
        exact Answer.noConfusion
      · rw [hgrant]
        exact Answer.noConfusion
      · exact fun hnone => hnone index List.mem_cons_self
      · exact ⟨number, index, List.mem_cons_self, hstacked.due, hgrant⟩

theorem step_of_refused {cause : Exhaustion} (hrefused : session.grant length = .refused cause) :
    (session.step (.allocate length)).1 = session := by
  rw [grant] at hrefused
  rw [Session.step] at hrefused ⊢
  cases hallocate : session.arena.allocate length with
  | error cause => rfl
  | ok granted =>
    rw [hallocate] at hrefused
    exact Answer.noConfusion hrefused

theorem decided_of_holds {moves : Nat → List Move}
    (hholds : session.arena.Holds session.slots.toList)
    (hcapacity : session.arena.capacity ≤ addressSpace)
    (hstacked : ∀ slotSize, session.arena.policy = .slab slotSize → ∃ fresh,
      Stacked (session.arena.capacity / slotSize) (moves slotSize) session.arena.freeSlots fresh) :
    Decided session.arena.capacity session.arena.maxInFlight session.arena.policy moves
      session where
  live_le := hholds.live_le
  limited hlive length := by
    simp only [grant, Session.step, Arena.allocate, if_pos (Nat.le_of_eq hlive.symm)]
  bump hpolicy hlive length := grant_bump hpolicy hlive length
  slab slotSize hpolicy hlive length := by
    obtain ⟨fresh, hstacked⟩ := hstacked slotSize hpolicy
    exact grant_slab hpolicy hholds hstacked hlive length
  refused length cause hrefused := step_of_refused hrefused
  checked length := (hholds.accounts hcapacity).allocate?_eq length

/-- At every moment of a run on a new arena a request of any length is decided by the slots
that are out, by the bytes set aside, and by the order in which indices came back. -/
theorem decided_run {hostMemory capacity maxInFlight : Nat} {policy : Policy} {arena : Arena}
    (hcreate : create hostMemory capacity maxInFlight policy = .ok arena) (steps : List Step) :
    let start : Session := { arena }
    Decided capacity maxInFlight policy (fun slotSize => start.movesFrom slotSize [] steps)
      (start.run steps) := by
  intro start
  have hnew : start.arena.Holds start.slots.toList := Holds.of_create hcreate
  have hspace : start.arena.capacity ≤ addressSpace := (accounts_of_create hcreate).capacity_le
  have hfree : start.arena.freeSlots = allSlots start.arena.policy start.arena.capacity := by
    obtain ⟨rfl, -⟩ := create_eq_ok hcreate
    rfl
  obtain ⟨hcapacity, hlimit⟩ := limits_run start steps
  have hpolicy := policy_run start steps
  have hstacked : ∀ slotSize, (start.run steps).arena.policy = .slab slotSize → ∃ fresh,
      Stacked ((start.run steps).arena.capacity / slotSize) (start.movesFrom slotSize [] steps)
        (start.run steps).arena.freeSlots fresh := by
    intro slotSize hslab
    rw [hpolicy] at hslab
    rw [hcapacity]
    have hempty : Stacked (start.arena.capacity / slotSize) [] start.arena.freeSlots 0 := by
      rw [hfree, hslab]
      exact Stacked.new _
    exact stacked_run hslab hnew hempty steps
  rw [← hcapacity] at hspace
  have hdecided := decided_of_holds (holds_run hnew steps) hspace hstacked
  rw [hcapacity, hlimit, hpolicy] at hdecided
  obtain ⟨rfl, -⟩ := create_eq_ok hcreate
  exact hdecided

/-- Two of three slots come back; the one that came back last goes out first, then the other
one, then the one that never went out, and then none is left. -/
theorem decided_run_reused :
    let start : Session :=
      { arena := { capacity := 26, maxInFlight := 4, policy := .slab 8, freeSlots := [0, 1, 2] } }
    let steps : List Step := [.allocate 8, .allocate 3, .free 1, .free 0]
    create 1024 26 4 (.slab 8) = .ok start.arena ∧
      Decided 26 4 (.slab 8) (fun slotSize => start.movesFrom slotSize [] steps)
        (start.run steps) ∧
      start.movesFrom 8 [] steps = [.back 0, .back 1, .out 1, .out 0] ∧
      (start.run steps).answers [.allocate 9, .allocate 1, .allocate 0, .allocate 8, .allocate 0] =
        [.refused (.slotTooSmall 9 8), .allocated 2 ⟨0, 1, 8⟩, .allocated 3 ⟨8, 0, 8⟩,
          .allocated 4 ⟨16, 8, 8⟩, .refused .arenaFull] := by
  intro start steps
  have hcreate : create 1024 26 4 (.slab 8) = .ok start.arena := rfl
  exact ⟨hcreate, decided_run hcreate steps, by decide +kernel, by decide +kernel⟩

end Session

end LogRelay.Arena
