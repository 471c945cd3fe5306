import LogRelay.Proofs.Arena.Contention

/-!
# What the bump policy takes back

Whether the bytes of a slot are taken back is decided by where the slot ends, not by when it
went out.  For slots with bytes the two come to the same, because those that are held lie in
the order in which they went out.  A slot without bytes ends where the one before it does, so
that bytes may be taken back in front of it while it is held.
-/

namespace LogRelay.Arena.Session

/-- The bytes in use once the slot with this number went back. -/
def usedWithout (session : Session) (entered : Bool) (number : Nat) : Nat :=
  (session.turn (.free entered number)).1.arena.usedBytes

/-- Bytes come back only with the slot that went out last of all that are held. -/
def ReclaimsLast (session : Session) : Prop :=
  ∀ entered number slot, session.slots.get? number = some slot →
    session.usedWithout entered number < session.arena.usedBytes →
      ∀ other kept, session.slots.get? other = some kept → other ≠ number → other < number

/-! ## The order of the slots that are held -/

/-- Behind a slot with bytes lies what went out later, and the cursor is behind all of them.
Slots that were given back may lie anywhere in between. -/
structure Ascending (session : Session) : Prop where
  policy_eq : session.arena.policy = .bump
  reserved_eq : ∀ number slot, session.slots.get? number = some slot → slot.reserved = slot.length
  limit_le_cursor : ∀ number slot, session.slots.get? number = some slot → slot.length ≠ 0 →
    slot.limit ≤ session.arena.cursor
  limit_le_offset : ∀ early late before behind, session.slots.get? early = some before →
    session.slots.get? late = some behind → early < late → before.length ≠ 0 →
      before.limit ≤ behind.offset

namespace Ascending

variable {session : Session} {number other : Nat} {slot kept : Slot}

/-- Where nothing is held there is nothing to be in order. -/
theorem of_none (hpolicy : session.arena.policy = .bump)
    (hnone : ∀ number slot, session.slots.get? number ≠ some slot) : session.Ascending where
  policy_eq := hpolicy
  reserved_eq number slot hheld := absurd hheld (hnone number slot)
  limit_le_cursor number slot hheld := absurd hheld (hnone number slot)
  limit_le_offset early _ before _ hearly := absurd hearly (hnone early before)

theorem usedBytes_eq (hascending : session.Ascending) :
    session.arena.usedBytes = session.arena.cursor := by
  rw [usedBytes, hascending.policy_eq]

/-- Nothing with bytes that is held went out after a slot that ends at the cursor. -/
theorem of_limit_eq_cursor (hascending : session.Ascending)
    (hheld : session.slots.get? number = some slot) (hbytes : slot.length ≠ 0)
    (hlimit : slot.limit = session.arena.cursor) (hkept : session.slots.get? other = some kept)
    (hne : other ≠ number) :
    other < number ∨ kept.length = 0 ∧ session.arena.cursor ≤ kept.offset := by
  rcases Nat.lt_or_gt_of_ne hne with hearlier | hlater
  · exact Or.inl hearlier
  · have hbehind := hascending.limit_le_offset number other slot kept hheld hkept hlater hbytes
    rw [hlimit] at hbehind
    refine Or.inr ⟨?_, hbehind⟩
    by_contra hlength
    have hwithin := hascending.limit_le_cursor other kept hkept hlength
    have hreserved := hascending.reserved_eq other kept hkept
    rw [Slot.limit] at hwithin
    omega

/-- The cursor falls back over the bytes of a slot that ends at it, and stays for any other. -/
theorem cursor_free (hascending : session.Ascending)
    (hheld : session.slots.get? number = some slot) :
    (session.arena.free slot).cursor = session.arena.cursor ∨
      slot.length ≠ 0 ∧ slot.limit = session.arena.cursor ∧
        (session.arena.free slot).cursor = slot.offset := by
  rw [cursor_free_bump hascending.policy_eq]
  split
  · next hlimit =>
    by_cases hbytes : slot.length = 0
    · left
      rw [← hlimit, Slot.limit, hascending.reserved_eq number slot hheld, hbytes, Nat.add_zero]
    · exact Or.inr ⟨hbytes, hlimit, rfl⟩
  · exact Or.inl rfl

/-! ## What one turn keeps -/

theorem allocate {length : Nat} {after : Arena} (hascending : session.Ascending)
    (heq : session.arena.allocate length = .ok (slot, after)) :
    Ascending ⟨after, (session.slots.add slot).2⟩ := by
  obtain ⟨-, cursor, freeSlots, hplace, rfl⟩ := allocate_eq_ok heq
  obtain ⟨-, rfl, rfl, rfl⟩ := place_bump_eq_ok hascending.policy_eq hplace
  -- Of the new slot and one from before only the new one can be the later one.
  have hcases : ∀ {other kept},
      (session.slots.add ⟨session.arena.cursor, length, length⟩).2.get? other = some kept →
        session.slots.get? other = some kept ∧ other < session.slots.entries.length ∨
          other = session.slots.entries.length ∧
            kept = ⟨session.arena.cursor, length, length⟩ := by
    intro other kept hkept
    by_cases hnew : other = session.slots.entries.length
    · obtain rfl := hnew
      exact Or.inr ⟨rfl, (Option.some.inj ((Numbered.get?_add_self _ _).symm.trans hkept)).symm⟩
    · rw [Numbered.get?_add_of_ne _ _ _ hnew] at hkept
      exact Or.inl ⟨hkept, Numbered.lt_length_of_get?_eq_some hkept⟩
  refine ⟨hascending.policy_eq, ?_, ?_, ?_⟩
  · intro other kept hkept
    rcases hcases hkept with ⟨hold, -⟩ | ⟨-, rfl⟩
    · exact hascending.reserved_eq other kept hold
    · rfl
  · intro other kept hkept hbytes
    rcases hcases hkept with ⟨hold, -⟩ | ⟨-, rfl⟩
    · exact Nat.le_trans (hascending.limit_le_cursor other kept hold hbytes) (Nat.le_add_right _ _)
    · exact Nat.le_refl _
  · intro early late before behind hearly hlate hlt hbytes
    rcases hcases hearly with ⟨hbefore, -⟩ | ⟨rfl, -⟩
    · rcases hcases hlate with ⟨hbehind, -⟩ | ⟨-, rfl⟩
      · exact hascending.limit_le_offset early late before behind hbefore hbehind hlt hbytes
      · exact hascending.limit_le_cursor early before hbefore hbytes
    · rcases hcases hlate with ⟨-, hbound⟩ | ⟨rfl, -⟩
      · exact absurd hlt (Nat.lt_asymm hbound)
      · exact absurd hlt (Nat.lt_irrefl _)

/-- Leaving a slot out changes nothing about the order of the others. -/
theorem remove {after : Arena} (hascending : session.Ascending) (number : Nat)
    (hpolicy : after.policy = .bump)
    (hcursor : ∀ other kept, session.slots.get? other = some kept → other ≠ number →
      kept.length ≠ 0 → kept.limit ≤ after.cursor) :
    Ascending ⟨after, session.slots.remove number⟩ := by
  refine ⟨hpolicy, ?_, ?_, ?_⟩
  · intro other kept hkept
    exact hascending.reserved_eq other kept (Numbered.get?_remove_eq_some_iff.mp hkept).2
  · intro other kept hkept hbytes
    obtain ⟨hne, hheld⟩ := Numbered.get?_remove_eq_some_iff.mp hkept
    exact hcursor other kept hheld hne hbytes
  · intro early late before behind hearly hlate
    exact hascending.limit_le_offset early late before behind
      (Numbered.get?_remove_eq_some_iff.mp hearly).2 (Numbered.get?_remove_eq_some_iff.mp hlate).2

theorem free (hascending : session.Ascending) (hheld : session.slots.get? number = some slot) :
    Ascending ⟨session.arena.free slot, session.slots.remove number⟩ := by
  refine hascending.remove number ((policy_free _ _).trans hascending.policy_eq) ?_
  intro other kept hkept hne hkeptBytes
  rcases hascending.cursor_free hheld with hcursor | ⟨hbytes, hlimit, hcursor⟩
  · rw [hcursor]
    exact hascending.limit_le_cursor other kept hkept hkeptBytes
  · rw [hcursor]
    rcases hascending.of_limit_eq_cursor hheld hbytes hlimit hkept hne with hearlier | ⟨hempty, -⟩
    · exact hascending.limit_le_offset other number kept slot hkept hheld hearlier hkeptBytes
    · exact absurd hempty hkeptBytes

theorem reset (hascending : session.Ascending)
    (haccounts : session.arena.Accounts session.slots.toList) :
    Ascending { session with arena := session.arena.reset.1 } := by
  by_cases hlive : session.arena.live = 0
  · have hnone : session.slots.toList = [] :=
      List.length_eq_zero_iff.mp (haccounts.live_eq.symm.trans hlive)
    refine .of_none ((policy_reset _).trans hascending.policy_eq) ?_
    intro other kept hkept
    have hmem := Numbered.mem_toList_of_get?_eq_some hkept
    rw [hnone] at hmem
    exact List.not_mem_nil hmem
  · rw [Arena.reset, if_neg hlive]
    exact hascending

theorem step (hascending : session.Ascending)
    (haccounts : session.arena.Accounts session.slots.toList) (step : Step) :
    (session.step step).1.Ascending := by
  cases step with
  | allocate length =>
    rw [Session.step]
    cases hallocate : session.arena.allocate length with
    | error cause => exact hascending
    | ok granted => exact hascending.allocate hallocate
  | free number =>
    rw [Session.step]
    cases hheld : session.slots.get? number with
    | none => exact hascending
    | some slot => exact hascending.free hheld
  | reset => exact hascending.reset haccounts
  | describe => exact hascending
  | fill number byte | write number start bytes | read number | describeSlot number =>
    rw [Session.step]
    cases session.slots.get? number with
    | none => exact hascending
    | some slot => exact { hascending with }

theorem turn (hascending : session.Ascending)
    (haccounts : session.arena.Accounts session.slots.toList) (turn : Turn) :
    (session.turn turn).1.Ascending := by
  rcases session.turn_cases turn with ⟨step, hturn⟩ | hturn | ⟨number, slot, -, hturn⟩
  · rw [hturn]
    exact hascending.step haccounts step
  · rw [hturn]
    exact hascending
  · rw [hturn]
    exact hascending.remove number hascending.policy_eq
      fun other kept hkept _ => hascending.limit_le_cursor other kept hkept

theorem after (hascending : session.Ascending)
    (haccounts : session.arena.Accounts session.slots.toList) (turns : List Turn) :
    (session.after turns).Ascending := by
  induction turns generalizing session with
  | nil => exact hascending
  | cons turn rest ih =>
    rw [← List.append_nil (Numbered.toList _)] at haccounts
    have hnext := accounts_turn haccounts turn
    rw [List.append_nil] at haccounts hnext
    exact ih (hascending.turn haccounts turn) hnext

end Ascending

/-! ## What comes back -/

/-- What becomes of the bytes in use when a held slot goes back. -/
structure Reclaims (session : Session) : Prop where
  /-- They fall by the bytes of the slot, or they stay. -/
  usedWithout_eq : ∀ entered number slot, session.slots.get? number = some slot →
    session.usedWithout entered number = session.arena.usedBytes ∨
      slot.length ≠ 0 ∧ session.usedWithout entered number + slot.length = session.arena.usedBytes
  /-- When they fall, all that is held went out earlier but slots without bytes, which lie behind
  all bytes in use. -/
  earlier : ∀ entered number slot, session.slots.get? number = some slot →
    session.usedWithout entered number < session.arena.usedBytes →
      ∀ other kept, session.slots.get? other = some kept → other ≠ number →
        other < number ∨ kept.length = 0 ∧ session.arena.usedBytes ≤ kept.offset
  /-- As long as every slot that is held has bytes, it is the last one that gives them back. -/
  last : (∀ number slot, session.slots.get? number = some slot → slot.length ≠ 0) →
    session.ReclaimsLast

variable {session : Session} {number : Nat} {slot : Slot}

theorem usedWithout_of_get? (hheld : session.slots.get? number = some slot) (entered : Bool) :
    session.usedWithout entered number = (session.arena.freeIn entered slot).usedBytes := by
  rw [usedWithout, turn, hheld]

theorem Ascending.usedWithout_cases (hascending : session.Ascending)
    (hheld : session.slots.get? number = some slot) (entered : Bool) :
    session.usedWithout entered number = session.arena.usedBytes ∨
      slot.length ≠ 0 ∧ slot.limit = session.arena.cursor ∧
        session.usedWithout entered number = slot.offset := by
  rw [usedWithout_of_get? hheld, hascending.usedBytes_eq]
  cases entered with
  | true =>
    rw [freeIn_true, (hascending.free hheld).usedBytes_eq]
    exact hascending.cursor_free hheld
  | false => exact Or.inl hascending.usedBytes_eq

theorem Ascending.earlier (hascending : session.Ascending) {entered : Bool}
    (hheld : session.slots.get? number = some slot)
    (hfalls : session.usedWithout entered number < session.arena.usedBytes) {other : Nat}
    {kept : Slot} (hkept : session.slots.get? other = some kept) (hne : other ≠ number) :
    other < number ∨ kept.length = 0 ∧ session.arena.usedBytes ≤ kept.offset := by
  rw [hascending.usedBytes_eq]
  rcases hascending.usedWithout_cases hheld entered with hsame | ⟨hbytes, hlimit, -⟩
  · exact absurd hsame (Nat.ne_of_lt hfalls)
  · exact hascending.of_limit_eq_cursor hheld hbytes hlimit hkept hne

theorem Ascending.reclaims (hascending : session.Ascending) : session.Reclaims where
  usedWithout_eq entered number slot hheld := by
    rcases hascending.usedWithout_cases hheld entered with hsame | ⟨hbytes, hlimit, hfalls⟩
    · exact Or.inl hsame
    · refine Or.inr ⟨hbytes, ?_⟩
      rw [hfalls, hascending.usedBytes_eq, ← hlimit, Slot.limit,
        hascending.reserved_eq number slot hheld]
  earlier _ _ _ hheld hfalls _ _ hkept hne := hascending.earlier hheld hfalls hkept hne
  last hbytes entered number slot hheld hfalls other kept hkept hne := by
    rcases hascending.earlier hheld hfalls hkept hne with hearlier | ⟨hempty, -⟩
    · exact hearlier
    · exact absurd hempty (hbytes other kept hkept)

/-- Whatever was done to a bump arena, with its guard or without, what comes back with a slot are
its own bytes, and no slot with bytes that is held went out after it. -/
theorem reclaims_after {hostMemory capacity maxInFlight : Nat} {arena : Arena}
    (hcreate : create hostMemory capacity maxInFlight .bump = .ok arena) (turns : List Turn) :
    Reclaims (after { arena } turns) := by
  have haccounts : arena.Accounts (Numbered.toList {}) := accounts_of_create hcreate
  have hpolicy : arena.policy = .bump := by
    obtain ⟨rfl, -⟩ := create_eq_ok hcreate
    rfl
  have hnew : Ascending { arena } := .of_none hpolicy (by simp [Numbered.get?])
  exact (hnew.after haccounts turns).reclaims

/-- Four bytes are lost to a handler without the guard.  The first slot is not the last one out,
and yet its bytes come back once those behind it did: the slot that is left has none. -/
theorem reclaims_after_empty :
    let start : Session :=
      { arena := { capacity := 32, maxInFlight := 8, policy := .bump, freeSlots := [] } }
    let turns : List Turn :=
      [.allocate true 4, .free false 0, .step (.allocate 6), .step (.allocate 8),
        .step (.allocate 0), .free true 2]
    let session := start.after turns
    create 1024 32 8 .bump = .ok start.arena ∧ session.Reclaims ∧
      session.slots = ⟨[none, some ⟨4, 6, 6⟩, none, some ⟨18, 0, 0⟩]⟩ ∧
      session.arena.usedBytes = 10 ∧ session.usedWithout true 1 = 4 ∧
      session.usedWithout false 1 = 10 ∧ session.usedWithout true 3 = 10 := by
  intro start turns session
  have hcreate : create 1024 32 8 .bump = .ok start.arena := rfl
  exact ⟨hcreate, reclaims_after hcreate turns, by decide, by decide, by decide, by decide,
    by decide⟩

/-- A slot without bytes is the last one out, and those of the slot before it come back. -/
theorem not_reclaimsLast_before_empty :
    let start : Session :=
      { arena := { capacity := 64, maxInFlight := 16, policy := .bump, freeSlots := [] } }
    let session := start.after [.step (.allocate 8), .step (.allocate 0)]
    create 1024 64 16 .bump = .ok start.arena ∧
      session.slots = ⟨[some ⟨0, 8, 8⟩, some ⟨8, 0, 0⟩]⟩ ∧ session.arena.usedBytes = 8 ∧
      session.usedWithout true 0 = 0 ∧ ¬session.ReclaimsLast := by
  intro start session
  have hslots : session.slots = ⟨[some ⟨0, 8, 8⟩, some ⟨8, 0, 0⟩]⟩ := by decide
  refine ⟨rfl, hslots, by decide, by decide, ?_⟩
  intro hlast
  have hheld : session.slots.get? 0 = some ⟨0, 8, 8⟩ := by rw [hslots]; rfl
  have hbehind : session.slots.get? 1 = some ⟨8, 0, 0⟩ := by rw [hslots]; rfl
  exact Nat.not_lt_zero 1 (hlast true 0 _ hheld (by decide) 1 _ hbehind (by decide))

end LogRelay.Arena.Session
