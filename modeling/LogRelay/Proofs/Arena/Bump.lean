import Mathlib.Algebra.Order.Ring.Nat
import LogRelay.Proofs.Arena.Safety

/-!
# Exact accounting under the bump policy

All that the bump policy keeps is one cursor.  What it stands for takes the history of
the run to say: the slots that are held, and those whose bytes are stranded because they
went back while something lay behind them.  In the order in which they went out these
slots lie one behind the other, from the beginning of the region up to the cursor, and
everything that can be said of the bytes in use follows from that.
-/

namespace LogRelay.Arena

/-- A slot with the number it went out under.  Numbers count up, so of two slots the one
with the higher number went out later. -/
structure Lot where
  number : Nat
  slot : Slot
  deriving Repr, DecidableEq

namespace Lot

def hasBytes (lot : Lot) : Bool :=
  lot.slot.length ≠ 0

def total (lots : List Lot) : Nat :=
  (lots.map fun lot => lot.slot.length).sum

def listed (held : Numbered Slot) : List Lot :=
  held.entries.zipIdx.filterMap fun (entry, number) => entry.map (Lot.mk number)

@[simp]
theorem total_nil : total [] = 0 := rfl

@[simp]
theorem total_cons (lot : Lot) (lots : List Lot) :
    total (lot :: lots) = lot.slot.length + total lots := rfl

@[simp]
theorem total_append (before behind : List Lot) :
    total (before ++ behind) = total before + total behind := by
  rw [total, List.map_append, List.sum_append_nat]
  rfl

theorem total_perm {lots others : List Lot} (hperm : lots.Perm others) :
    total lots = total others :=
  (hperm.map _).sum_nat

theorem total_filter_hasBytes (lots : List Lot) : total (lots.filter hasBytes) = total lots := by
  induction lots with
  | nil => rfl
  | cons lot rest ih =>
    by_cases hbytes : lot.slot.length = 0
    · rw [List.filter_cons_of_neg (by simp [hasBytes, hbytes]), ih, total_cons, hbytes,
        Nat.zero_add]
    · rw [List.filter_cons_of_pos (by simp [hasBytes, hbytes]), total_cons, ih, total_cons]

theorem total_eq_zero_iff (lots : List Lot) :
    total lots = 0 ↔ ∀ lot ∈ lots, lot.slot.length = 0 := by
  induction lots with
  | nil => simp
  | cons lot rest ih => rw [total_cons, Nat.add_eq_zero_iff, ih, List.forall_mem_cons]

theorem mem_listed (held : Numbered Slot) (lot : Lot) :
    lot ∈ listed held ↔ held.get? lot.number = some lot.slot := by
  rw [listed, List.mem_filterMap, Numbered.get?, Option.join_eq_some_iff]
  constructor
  · rintro ⟨⟨entry, number⟩, hentry, heq⟩
    obtain ⟨slot, rfl, rfl⟩ := Option.map_eq_some_iff.mp heq
    exact List.mem_zipIdx_iff_getElem?.mp hentry
  · intro hentry
    exact ⟨(some lot.slot, lot.number), List.mem_zipIdx_iff_getElem?.mpr hentry, rfl⟩

theorem map_slot_listed (held : Numbered Slot) : (listed held).map Lot.slot = held.toList := by
  have hslot : (fun entry : Option Slot × Nat => (entry.1.map (Lot.mk entry.2)).map Lot.slot) =
      id ∘ Prod.fst := by
    funext entry
    rw [Option.map_map]
    exact congrFun Option.map_id entry.1
  rw [listed, List.map_filterMap, hslot, ← List.filterMap_map, List.zipIdx_map_fst]
  rfl

theorem total_listed (held : Numbered Slot) :
    total (listed held) = (held.toList.map Slot.length).sum := by
  rw [← map_slot_listed, List.map_map]
  rfl

theorem listed_add (held : Numbered Slot) (slot : Slot) :
    listed (held.add slot).2 = listed held ++ [⟨held.entries.length, slot⟩] := by
  simp [listed, Numbered.add, List.zipIdx_append]

theorem listed_perm {held : Numbered Slot} {number : Nat} {slot : Slot}
    (heq : held.get? number = some slot) :
    (listed held).Perm (⟨number, slot⟩ :: listed (held.remove number)) := by
  obtain ⟨before, behind, hentries, rfl⟩ := Numbered.entries_of_get?_eq_some heq
  simp [listed, Numbered.remove, hentries, List.zipIdx_append, List.zipIdx_cons]

end Lot

/-- Slots lie one behind the other, from `start` up to `limit`. -/
def Tiles : Nat → List Lot → Nat → Prop
  | start, [], limit => start = limit
  | start, lot :: rest, limit =>
    lot.slot.offset = start ∧ Tiles (start + lot.slot.length) rest limit

namespace Tiles

variable {start limit : Nat} {lots before behind : List Lot} {lot other : Lot}

theorem append_iff :
    Tiles start (before ++ behind) limit ↔
      ∃ middle, Tiles start before middle ∧ Tiles middle behind limit := by
  induction before generalizing start with
  | nil => simp [Tiles]
  | cons lot rest ih => simp [Tiles, ih, and_assoc]

theorem limit_eq (htiles : Tiles start lots limit) : limit = start + Lot.total lots := by
  induction lots generalizing start with
  | nil => exact htiles.symm
  | cons lot rest ih =>
    obtain ⟨-, hrest⟩ := htiles
    rw [ih hrest, Lot.total_cons, Nat.add_assoc]

theorem within (htiles : Tiles start lots limit) (hlot : lot ∈ lots) :
    start ≤ lot.slot.offset ∧ lot.slot.offset + lot.slot.length ≤ limit := by
  obtain ⟨before, behind, rfl⟩ := List.append_of_mem hlot
  obtain ⟨middle, hbefore, rfl, hbehind⟩ := append_iff.mp htiles
  have hstart := hbefore.limit_eq
  have hlimit := hbehind.limit_eq
  omega

theorem exists_covers (htiles : Tiles start lots limit) {position : Nat} (hstart : start ≤ position)
    (hlimit : position < limit) : ∃ lot ∈ lots, lot.slot.Covers position := by
  induction lots generalizing start with
  | nil => exact absurd hlimit (by rw [← htiles]; omega)
  | cons lot rest ih =>
    obtain ⟨hoffset, hrest⟩ := htiles
    by_cases hinside : position < start + lot.slot.length
    · exact ⟨lot, List.mem_cons_self, by rw [Slot.Covers, hoffset]; exact ⟨hstart, hinside⟩⟩
    · obtain ⟨other, hother, hcovers⟩ := ih hrest (Nat.le_of_not_lt hinside)
      exact ⟨other, List.mem_cons_of_mem _ hother, hcovers⟩

/-- No two of the slots share a byte. -/
theorem eq_of_covers (htiles : Tiles start lots limit) (hlot : lot ∈ lots) (hother : other ∈ lots)
    {position : Nat} (hcovers : lot.slot.Covers position) (hcovered : other.slot.Covers position) :
    lot = other := by
  induction lots generalizing start with
  | nil => exact absurd hlot (by simp)
  | cons first rest ih =>
    obtain ⟨hoffset, hrest⟩ := htiles
    have hbehind : ∀ late ∈ rest, start + first.slot.length ≤ late.slot.offset :=
      fun late hlate => (hrest.within hlate).1
    simp only [Slot.Covers] at hcovers hcovered ih
    rcases List.mem_cons.mp hlot with rfl | hlate
    · rcases List.mem_cons.mp hother with rfl | hlater
      · rfl
      · have := hbehind other hlater
        omega
    · rcases List.mem_cons.mp hother with rfl | hlater
      · have := hbehind lot hlate
        omega
      · exact ih hrest hlate hlater

end Tiles

namespace Session

/-! ## Stranded slots -/

/-- The slots stranded after a step, given those stranded before it: a slot with bytes
that goes back without the cursor moving is stranded until the arena is reset. -/
def strand (session : Session) (stranded : List Lot) : Step → List Lot
  | .free number =>
    match session.slots.get? number with
    | none => stranded
    | some slot =>
      if slot.length ≠ 0 ∧ (session.arena.free slot).cursor = session.arena.cursor then
        stranded ++ [⟨number, slot⟩]
      else stranded
  | .reset => if session.arena.reset.2 then [] else stranded
  | .allocate _ | .fill _ _ | .write _ _ _ | .read _ | .describe | .describeSlot _ => stranded

def strandedFrom (stranded : List Lot) : Session → List Step → List Lot
  | _, [] => stranded
  | session, step :: rest =>
    strandedFrom (session.strand stranded step) (session.step step).1 rest

def answers : Session → List Step → List Answer
  | _, [] => []
  | session, step :: rest => (session.step step).2 :: answers (session.step step).1 rest

/-- The slots that account for the bytes in use: those held and those stranded. -/
def OnBooks (session : Session) (stranded : List Lot) (lot : Lot) : Prop :=
  session.slots.get? lot.number = some lot.slot ∨ lot ∈ stranded

theorem onBooks_iff (session : Session) (stranded : List Lot) (lot : Lot) :
    session.OnBooks stranded lot ↔ lot ∈ Lot.listed session.slots ++ stranded := by
  rw [OnBooks, List.mem_append, Lot.mem_listed]

/-- The slots on the books in the order in which they went out.  Those without bytes
may lie anywhere; the others make up the region below the cursor. -/
structure Laid (session : Session) (stranded lots : List Lot) : Prop where
  policy_eq : session.arena.policy = .bump
  holds : session.arena.Holds session.slots.toList
  onBooks : lots.Perm (Lot.listed session.slots ++ stranded)
  inOrder : lots.Pairwise fun early late => early.number < late.number
  number_lt : ∀ lot ∈ lots, lot.number < session.slots.entries.length
  reserved_eq : ∀ lot ∈ lots, lot.slot.reserved = lot.slot.length
  tiles : Tiles 0 (lots.filter Lot.hasBytes) session.arena.cursor

namespace Laid

variable {session : Session} {stranded lots : List Lot} {number : Nat} {slot : Slot}

theorem usedBytes_eq_cursor (hlaid : Laid session stranded lots) :
    session.arena.usedBytes = session.arena.cursor := by
  rw [usedBytes, hlaid.policy_eq]

theorem cursor_eq_total (hlaid : Laid session stranded lots) :
    session.arena.cursor = Lot.total lots := by
  rw [hlaid.tiles.limit_eq, Lot.total_filter_hasBytes, Nat.zero_add]

theorem mem_lots_iff (hlaid : Laid session stranded lots) (lot : Lot) :
    lot ∈ lots ↔ session.OnBooks stranded lot := by
  rw [onBooks_iff, hlaid.onBooks.mem_iff]

/-- A held slot has its place in the order, and the others are what remains of the books
without it. -/
theorem split (hlaid : Laid session stranded lots) (hheld : session.slots.get? number = some slot) :
    ∃ before behind, lots = before ++ ⟨number, slot⟩ :: behind ∧
      (before ++ behind).Perm (Lot.listed (session.slots.remove number) ++ stranded) := by
  have hperm : lots.Perm
      (⟨number, slot⟩ :: (Lot.listed (session.slots.remove number) ++ stranded)) :=
    hlaid.onBooks.trans ((Lot.listed_perm hheld).append_right stranded)
  obtain ⟨before, behind, rfl⟩ :=
    List.append_of_mem (hperm.mem_iff.mpr List.mem_cons_self)
  exact ⟨before, behind, rfl, (List.perm_middle.symm.trans hperm).cons_inv⟩

/-- Behind the end of a slot with bytes lie the slots that went out later. -/
theorem tiles_split {before behind : List Lot}
    (hlaid : Laid session stranded (before ++ ⟨number, slot⟩ :: behind))
    (hbytes : slot.length ≠ 0) :
    Tiles 0 (before.filter Lot.hasBytes) slot.offset ∧
      session.arena.cursor = slot.limit + Lot.total behind := by
  have htiles := hlaid.tiles
  have hreserved := hlaid.reserved_eq ⟨number, slot⟩ (by simp)
  rw [List.filter_append, List.filter_cons_of_pos (by simpa [Lot.hasBytes] using hbytes)] at htiles
  obtain ⟨middle, hbefore, rfl, hbehind⟩ := Tiles.append_iff.mp htiles
  refine ⟨hbefore, ?_⟩
  rw [hbehind.limit_eq, Lot.total_filter_hasBytes, Slot.limit, hreserved]

/-- Leaving a slot out changes nothing about the order and the numbers of the others. -/
theorem inOrder_split {before behind : List Lot} {lot : Lot}
    (hlaid : Laid session stranded (before ++ lot :: behind)) :
    (before ++ behind).Pairwise (fun early late => early.number < late.number) ∧
      ∀ late, late ∈ before ++ behind → (lot.number < late.number ↔ late ∈ behind) := by
  have hsub : (before ++ behind).Sublist (before ++ lot :: behind) :=
    (List.sublist_cons_self _ _).append_left before
  obtain ⟨-, hlater, hearlier⟩ := List.pairwise_append.mp hlaid.inOrder
  refine ⟨hlaid.inOrder.sublist hsub, fun late hlate => ?_⟩
  constructor
  · intro hnumber
    rcases List.mem_append.mp hlate with hbefore | hbehind
    · have := hearlier late hbefore lot List.mem_cons_self
      omega
    · exact hbehind
  · exact fun hbehind => (List.pairwise_cons.mp hlater).1 late hbehind

/-! ## What one step keeps -/

/-- A slot that goes back and leaves nothing stranded is off the books. -/
theorem remove {before behind : List Lot} {cursor : Nat} {after : Session}
    (hlaid : Laid session stranded (before ++ ⟨number, slot⟩ :: behind))
    (hothers : (before ++ behind).Perm (Lot.listed (session.slots.remove number) ++ stranded))
    (harena : after.arena.policy = .bump) (hholds : after.arena.Holds after.slots.toList)
    (hslots : after.slots = session.slots.remove number) (hcursor : after.arena.cursor = cursor)
    (htiles : Tiles 0 ((before ++ behind).filter Lot.hasBytes) cursor) :
    Laid after stranded (before ++ behind) where
  policy_eq := harena
  holds := hholds
  onBooks := by rw [hslots]; exact hothers
  inOrder := hlaid.inOrder_split.1
  number_lt lot hlot := by
    have hmem : lot ∈ before ++ ⟨number, slot⟩ :: behind :=
      ((List.sublist_cons_self _ _).append_left before).subset hlot
    rw [hslots, Numbered.remove, List.length_set]
    exact hlaid.number_lt lot hmem
  reserved_eq lot hlot :=
    hlaid.reserved_eq lot (((List.sublist_cons_self _ _).append_left before).subset hlot)
  tiles := by rw [hcursor]; exact htiles

theorem allocate {length : Nat} {after : Arena} (hlaid : Laid session stranded lots)
    (heq : session.arena.allocate length = .ok (slot, after))
    (hholds : after.Holds (session.slots.add slot).2.toList) :
    Laid ⟨after, (session.slots.add slot).2⟩ stranded
      (lots ++ [⟨session.slots.entries.length, slot⟩]) := by
  obtain ⟨-, cursor, freeSlots, hplace, rfl⟩ := allocate_eq_ok heq
  obtain ⟨-, rfl, rfl, rfl⟩ := place_bump_eq_ok hlaid.policy_eq hplace
  refine ⟨hlaid.policy_eq, hholds, ?_, ?_, ?_, ?_, ?_⟩
  · rw [Lot.listed_add]
    refine (hlaid.onBooks.append_right _).trans ?_
    rw [List.append_assoc, List.append_assoc]
    exact List.perm_append_comm.append_left _
  · refine List.pairwise_append.mpr ⟨hlaid.inOrder, List.pairwise_singleton _ _, ?_⟩
    intro early hearly late hlate
    rw [List.mem_singleton.mp hlate]
    exact hlaid.number_lt early hearly
  · refine List.forall_mem_append.mpr ⟨fun lot hlot => ?_, List.forall_mem_singleton.mpr ?_⟩
    · exact Nat.lt_of_lt_of_le (hlaid.number_lt lot hlot) (by simp [Numbered.add])
    · simp [Numbered.add]
  · exact List.forall_mem_append.mpr ⟨hlaid.reserved_eq, List.forall_mem_singleton.mpr rfl⟩
  · rw [List.filter_append, Tiles.append_iff]
    refine ⟨session.arena.cursor, hlaid.tiles, ?_⟩
    by_cases hlength : length = 0
    · rw [List.filter_cons_of_neg (by simp [Lot.hasBytes, hlength]), hlength]
      rfl
    · rw [List.filter_cons_of_pos (by simp [Lot.hasBytes, hlength])]
      exact ⟨rfl, rfl⟩

/-- What becomes of the cursor when a slot goes back: it falls back by the slot's length
exactly when nothing with bytes went out later. -/
theorem cursor_free {before behind : List Lot}
    (hlaid : Laid session stranded (before ++ ⟨number, slot⟩ :: behind))
    (hbytes : slot.length ≠ 0) :
    (Lot.total behind = 0 → (session.arena.free slot).cursor = slot.offset ∧
      session.arena.cursor = slot.offset + slot.length) ∧
    (Lot.total behind ≠ 0 → (session.arena.free slot).cursor = session.arena.cursor) := by
  obtain ⟨-, hcursor⟩ := hlaid.tiles_split hbytes
  have hreserved : slot.reserved = slot.length := hlaid.reserved_eq ⟨number, slot⟩ (by simp)
  rw [cursor_free_bump hlaid.policy_eq]
  constructor
  · intro hlast
    rw [hlast, Nat.add_zero] at hcursor
    rw [if_pos hcursor.symm, hcursor, Slot.limit, hreserved]
    exact ⟨rfl, rfl⟩
  · intro hbehind
    rw [if_neg (by omega)]

theorem free (hlaid : Laid session stranded lots)
    (hheld : session.slots.get? number = some slot)
    (hholds : (session.arena.free slot).Holds (session.slots.remove number).toList) :
    ∃ others, Laid ⟨session.arena.free slot, session.slots.remove number⟩
      (session.strand stranded (.free number)) others := by
  have hpolicy : (session.arena.free slot).policy = .bump :=
    (policy_free _ _).trans hlaid.policy_eq
  obtain ⟨before, behind, rfl, hothers⟩ := hlaid.split hheld
  have hreserved : slot.reserved = slot.length := hlaid.reserved_eq ⟨number, slot⟩ (by simp)
  simp only [strand, hheld]
  by_cases hbytes : slot.length = 0
  · -- A slot without bytes leaves the cursor where it is, wherever it lies.
    have hcursor : (session.arena.free slot).cursor = session.arena.cursor := by
      rw [cursor_free_bump hlaid.policy_eq, Slot.limit, hreserved, hbytes, Nat.add_zero]
      split
      · next heq => exact heq
      · rfl
    have htiles := hlaid.tiles
    rw [List.filter_append, List.filter_cons_of_neg (by simp [Lot.hasBytes, hbytes]),
      ← List.filter_append] at htiles
    rw [if_neg (by simp [hbytes])]
    exact ⟨_, hlaid.remove hothers hpolicy hholds rfl hcursor htiles⟩
  · obtain ⟨hlast, hbehind⟩ := hlaid.cursor_free hbytes
    obtain ⟨hbefore, -⟩ := hlaid.tiles_split hbytes
    by_cases htotal : Lot.total behind = 0
    · obtain ⟨hafter, hcursor⟩ := hlast htotal
      have hnone : behind.filter Lot.hasBytes = [] := by
        rw [List.filter_eq_nil_iff]
        intro lot hlot
        simp [Lot.hasBytes, (Lot.total_eq_zero_iff behind).mp htotal lot hlot]
      rw [if_neg (by omega)]
      refine ⟨_, hlaid.remove hothers hpolicy hholds rfl hafter ?_⟩
      rw [List.filter_append, hnone, List.append_nil]
      exact hbefore
    · -- The slot stays where it is on the books, but on the other side.
      have hcursor := hbehind htotal
      rw [if_pos ⟨hbytes, hcursor⟩]
      refine ⟨_, hpolicy, hholds, ?_, hlaid.inOrder, ?_, hlaid.reserved_eq, ?_⟩
      · refine (List.perm_middle.trans (hothers.cons ⟨number, slot⟩)).trans ?_
        rw [← List.append_assoc]
        exact (List.perm_append_singleton _ _).symm
      · simpa only [Numbered.remove, List.length_set] using hlaid.number_lt
      · rw [hcursor]
        exact hlaid.tiles

theorem reset (hlaid : Laid session stranded lots) :
    ∃ others, Laid (session.step .reset).1 (session.strand stranded .reset) others := by
  simp only [step, strand, Arena.reset]
  by_cases hlive : session.arena.live = 0
  · have hnone : session.slots.toList = [] :=
      List.length_eq_zero_iff.mp (hlaid.holds.live_eq.symm.trans hlive)
    have hlisted : Lot.listed session.slots = [] := by
      rw [← List.map_eq_nil_iff, Lot.map_slot_listed, hnone]
    have hholds := hlaid.holds.reset
    rw [Arena.reset, if_pos hlive] at hholds
    simp only [if_pos hlive]
    refine ⟨[], hlaid.policy_eq, hholds, ?_, List.Pairwise.nil, List.forall_mem_nil _,
      List.forall_mem_nil _, rfl⟩
    simp [hlisted]
  · simp only [if_neg hlive]
    exact ⟨lots, hlaid⟩

end Laid

theorem laid_step {session : Session} {stranded lots : List Lot}
    (hlaid : Laid session stranded lots) (step : Step) :
    ∃ others, Laid (session.step step).1 (session.strand stranded step) others := by
  have hafter := hlaid.holds
  rw [← List.append_nil (Numbered.toList _)] at hafter
  have hholds := holds_step hafter step
  rw [List.append_nil] at hholds
  cases step with
  | allocate length =>
    rw [Session.step] at hholds ⊢
    cases hallocate : session.arena.allocate length with
    | error cause => exact ⟨lots, hlaid⟩
    | ok taken =>
      rw [hallocate] at hholds
      exact ⟨_, hlaid.allocate hallocate hholds⟩
  | free number =>
    cases hheld : session.slots.get? number with
    | none =>
      simp only [Session.step, strand, hheld]
      exact ⟨lots, hlaid⟩
    | some slot =>
      simp only [Session.step, hheld] at hholds ⊢
      exact hlaid.free hheld hholds
  | reset => exact hlaid.reset
  | describe => exact ⟨lots, hlaid⟩
  | fill number byte | write number start bytes | read number | describeSlot number =>
    rw [Session.step] at hholds ⊢
    cases hheld : session.slots.get? number with
    | none => exact ⟨lots, hlaid⟩
    | some slot =>
      rw [hheld] at hholds
      exact ⟨lots, { hlaid with holds := hholds }⟩

theorem laid_run {session : Session} {stranded lots : List Lot}
    (hlaid : Laid session stranded lots) (steps : List Step) :
    ∃ others, Laid (session.run steps) (strandedFrom stranded session steps) others := by
  induction steps generalizing session stranded lots with
  | nil => exact ⟨lots, hlaid⟩
  | cons step rest ih =>
    obtain ⟨others, hothers⟩ := laid_step hlaid step
    exact ih hothers

/-! ## Going back in reverse order -/

/-- The numbers that were given between two moments of a run, in order. -/
def numbersSince (earlier later : Session) : List Nat :=
  List.range' earlier.slots.entries.length
    (later.slots.entries.length - earlier.slots.entries.length)

theorem run_append (session : Session) (steps more : List Step) :
    session.run (steps ++ more) = (session.run steps).run more :=
  List.foldl_append

theorem length_entries_allocate_le (session : Session) (length : Nat) :
    session.slots.entries.length ≤ (session.step (.allocate length)).1.slots.entries.length := by
  rw [step]
  split
  · exact Nat.le_refl _
  · simp [Numbered.add]

theorem length_entries_run_le (session : Session) (lengths : List Nat) :
    session.slots.entries.length ≤
      (session.run (lengths.map Step.allocate)).slots.entries.length := by
  induction lengths generalizing session with
  | nil => exact Nat.le_refl _
  | cons length rest ih => exact Nat.le_trans (length_entries_allocate_le session length) (ih _)

/-- As far as the earlier session reaches, the later one is in its state again. -/
structure Restored (earlier later : Session) : Prop where
  policy_eq : later.arena.policy = .bump
  cursor_eq : later.arena.cursor = earlier.arena.cursor
  held_eq : ∀ number < earlier.slots.entries.length,
    later.slots.get? number = earlier.slots.get? number

/-- Once all that went out after it is back, a slot that goes back undoes its
allocation. -/
theorem Restored.free {session later : Session} {length : Nat} {slot : Slot} {arena : Arena}
    (hallocate : session.arena.allocate length = .ok (slot, arena))
    (hpolicy : session.arena.policy = .bump)
    (hrestored : Restored ⟨arena, (session.slots.add slot).2⟩ later) :
    Restored session (later.step (.free session.slots.entries.length)).1 := by
  obtain ⟨hstill, hcursor, hheld⟩ := hrestored
  obtain ⟨-, cursor, freeSlots, hplace, rfl⟩ := allocate_eq_ok hallocate
  obtain ⟨-, rfl, rfl, rfl⟩ := place_bump_eq_ok hpolicy hplace
  have hlonger : (session.slots.add ⟨session.arena.cursor, length, length⟩).2.entries.length =
      session.slots.entries.length + 1 := by simp [Numbered.add]
  simp only [hlonger] at hheld
  have hslot := (hheld _ (Nat.lt_succ_self _)).trans (Numbered.get?_add_self session.slots _)
  simp only [step, hslot]
  have hend : later.arena.cursor = session.arena.cursor + length := hcursor
  refine ⟨(policy_free _ _).trans hstill, ?_, fun number hnumber => ?_⟩
  · rw [cursor_free_bump hstill, hend]
    exact if_pos rfl
  · rw [Numbered.get?_remove, if_neg (Nat.ne_of_lt hnumber),
      hheld number (Nat.lt_succ_of_lt hnumber)]
    exact Numbered.get?_add_of_ne session.slots _ number (Nat.ne_of_lt hnumber)

/-- Slots that are given back in the reverse order of their allocation leave everything
as it was before. -/
theorem restored_run (session : Session) (hpolicy : session.arena.policy = .bump)
    (lengths : List Nat) :
    let taken := session.run (lengths.map Step.allocate)
    Restored session (taken.run ((session.numbersSince taken).reverse.map Step.free)) := by
  induction lengths generalizing session with
  | nil =>
    intro taken
    have hnone : session.numbersSince session = [] := by
      rw [numbersSince, Nat.sub_self, List.range'_zero]
    change Restored session (session.run ((session.numbersSince session).reverse.map Step.free))
    rw [hnone]
    exact ⟨hpolicy, rfl, fun _ _ => rfl⟩
  | cons length rest ih =>
    intro taken
    cases hallocate : session.arena.allocate length with
    | error cause =>
      have hfirst : (session.step (.allocate length)).1 = session := by rw [step, hallocate]
      have htaken : taken = session.run (rest.map Step.allocate) :=
        congrArg (fun first : Session => first.run (rest.map Step.allocate)) hfirst
      rw [htaken]
      exact ih session hpolicy
    | ok placed =>
      obtain ⟨slot, arena⟩ := placed
      have hfirst : (session.step (.allocate length)).1 = ⟨arena, (session.slots.add slot).2⟩ := by
        rw [step, hallocate]
      have htaken : taken = run ⟨arena, (session.slots.add slot).2⟩ (rest.map Step.allocate) :=
        congrArg (fun first : Session => first.run (rest.map Step.allocate)) hfirst
      have hstill : arena.policy = .bump := by
        obtain ⟨-, _, _, -, rfl⟩ := allocate_eq_ok hallocate
        exact hpolicy
      have hmore := length_entries_run_le ⟨arena, (session.slots.add slot).2⟩ rest
      have hnumbers : session.numbersSince taken = session.slots.entries.length ::
          numbersSince ⟨arena, (session.slots.add slot).2⟩ taken := by
        rw [← htaken] at hmore
        simp only [numbersSince, Numbered.add, List.length_append, List.length_singleton]
          at hmore ⊢
        rw [← List.range'_succ]
        congr 1
        omega
      rw [hnumbers, List.reverse_cons, List.map_append, run_append]
      have hothers := ih ⟨arena, (session.slots.add slot).2⟩ hstill
      rw [← htaken] at hothers
      exact hothers.free hallocate hpolicy

/-! ## Every run -/

/-- What the cursor of a bump arena stands for, given the slots that are stranded. -/
structure Exact (session : Session) (stranded : List Lot) : Prop where
  usedBytes_eq : session.arena.usedBytes =
    (session.slots.toList.map Slot.length).sum + Lot.total stranded
  /-- Every byte in use belongs to one slot, held or stranded. -/
  covered : ∀ position < session.arena.usedBytes,
    ∃! lot, session.OnBooks stranded lot ∧ lot.slot.Covers position
  /-- No slot with bytes reaches beyond them. -/
  within : ∀ lot, session.OnBooks stranded lot → lot.slot.length ≠ 0 →
    lot.slot.offset + lot.slot.length ≤ session.arena.usedBytes
  /-- A slot with bytes behind which nothing with bytes went out gives its bytes back. -/
  free_last : ∀ number slot, session.slots.get? number = some slot → slot.length ≠ 0 →
    (∀ lot, session.OnBooks stranded lot → number < lot.number → lot.slot.length = 0) →
    (session.step (.free number)).1.arena.usedBytes + slot.length = session.arena.usedBytes
  /-- Any other one gives nothing back. -/
  free_other : ∀ number slot, session.slots.get? number = some slot → slot.length ≠ 0 →
    (∃ lot, session.OnBooks stranded lot ∧ number < lot.number ∧ lot.slot.length ≠ 0) →
    (session.step (.free number)).1.arena.usedBytes = session.arena.usedBytes
  free_reverse : ∀ lengths : List Nat,
    let taken := session.run (lengths.map Step.allocate)
    (taken.run ((session.numbersSince taken).reverse.map Step.free)).arena.usedBytes =
      session.arena.usedBytes
  /-- What is stranded stays in use, and out of everybody's hands, until a reset. -/
  stays : ∀ more : List Step, .wasReset true ∉ session.answers more →
    ∀ lot ∈ stranded, ∀ position, lot.slot.Covers position →
      position < (session.run more).arena.usedBytes ∧
        ∀ number slot, (session.run more).slots.get? number = some slot → ¬slot.Covers position

namespace Laid

variable {session : Session} {stranded lots : List Lot} {number : Nat} {slot : Slot} {lot : Lot}

theorem mem_tiles (hlaid : Laid session stranded lots) (honBooks : session.OnBooks stranded lot)
    (hbytes : lot.slot.length ≠ 0) : lot ∈ lots.filter Lot.hasBytes :=
  List.mem_filter.mpr ⟨(hlaid.mem_lots_iff lot).mpr honBooks, by simpa [Lot.hasBytes] using hbytes⟩

theorem mem_tiles_of_covers (hlaid : Laid session stranded lots)
    (honBooks : session.OnBooks stranded lot) {position : Nat}
    (hcovers : lot.slot.Covers position) : lot ∈ lots.filter Lot.hasBytes := by
  apply hlaid.mem_tiles honBooks
  simp only [Slot.Covers] at hcovers
  omega

theorem existsUnique_covers (hlaid : Laid session stranded lots) {position : Nat}
    (hposition : position < session.arena.usedBytes) :
    ∃! lot, session.OnBooks stranded lot ∧ lot.slot.Covers position := by
  rw [hlaid.usedBytes_eq_cursor] at hposition
  obtain ⟨lot, hlot, hcovers⟩ := hlaid.tiles.exists_covers (Nat.zero_le _) hposition
  refine ⟨lot, ⟨(hlaid.mem_lots_iff lot).mp (List.mem_filter.mp hlot).1, hcovers⟩, ?_⟩
  rintro other ⟨hother, hcovered⟩
  exact hlaid.tiles.eq_of_covers (hlaid.mem_tiles_of_covers hother hcovered) hlot hcovered hcovers

/-- What lies behind a held slot is what went out after it. -/
theorem total_behind_eq_zero_iff {before behind : List Lot}
    (hlaid : Laid session stranded (before ++ ⟨number, slot⟩ :: behind)) :
    Lot.total behind = 0 ↔
      ∀ lot, session.OnBooks stranded lot → number < lot.number → lot.slot.length = 0 := by
  obtain ⟨-, hlater⟩ := hlaid.inOrder_split
  rw [Lot.total_eq_zero_iff]
  constructor
  · intro hempty lot honBooks hnumber
    have hmem := (hlaid.mem_lots_iff lot).mpr honBooks
    have hne : lot ≠ ⟨number, slot⟩ := by
      rintro rfl
      exact Nat.lt_irrefl _ hnumber
    have hothers : lot ∈ before ++ behind := by simpa [hne] using hmem
    exact hempty lot ((hlater lot hothers).mp hnumber)
  · intro hempty lot hbehind
    have hnumber := (hlater lot (List.mem_append_right _ hbehind)).mpr hbehind
    have hmem : lot ∈ before ++ ⟨number, slot⟩ :: behind := by simp [hbehind]
    exact hempty lot ((hlaid.mem_lots_iff lot).mp hmem) hnumber

theorem usedBytes_free (hlaid : Laid session stranded lots)
    (hheld : session.slots.get? number = some slot) (hbytes : slot.length ≠ 0) :
    ((∀ lot, session.OnBooks stranded lot → number < lot.number → lot.slot.length = 0) →
        (session.step (.free number)).1.arena.usedBytes + slot.length = session.arena.usedBytes) ∧
      ((∃ lot, session.OnBooks stranded lot ∧ number < lot.number ∧ lot.slot.length ≠ 0) →
        (session.step (.free number)).1.arena.usedBytes = session.arena.usedBytes) := by
  obtain ⟨before, behind, rfl, -⟩ := hlaid.split hheld
  obtain ⟨hlast, hother⟩ := hlaid.cursor_free hbytes
  have hused : (session.step (.free number)).1.arena.usedBytes =
      (session.arena.free slot).cursor := by
    simp only [step, hheld, usedBytes, policy_free, hlaid.policy_eq]
  rw [hused, hlaid.usedBytes_eq_cursor, ← hlaid.total_behind_eq_zero_iff]
  constructor
  · intro hempty
    obtain ⟨hafter, hcursor⟩ := hlast hempty
    rw [hafter, hcursor]
  · rintro ⟨lot, honBooks, hnumber, hlot⟩
    apply hother
    rw [Ne, hlaid.total_behind_eq_zero_iff]
    exact fun hempty => hlot (hempty lot honBooks hnumber)

/-- What is stranded is not held: the books list every slot once. -/
theorem not_held_of_stranded (hlaid : Laid session stranded lots) (hlot : lot ∈ stranded) :
    session.slots.get? lot.number ≠ some lot.slot := by
  have hnodup : lots.Nodup := hlaid.inOrder.imp fun hlt heq => by
    rw [heq] at hlt
    exact Nat.lt_irrefl _ hlt
  have happend := hlaid.onBooks.nodup_iff.mp hnodup
  intro hheld
  exact (List.nodup_append.mp happend).2.2 lot ((Lot.mem_listed _ _).mpr hheld) lot hlot rfl

theorem stranded_apart (hlaid : Laid session stranded lots) (hlot : lot ∈ stranded) {position : Nat}
    (hcovers : lot.slot.Covers position) :
    position < session.arena.usedBytes ∧
      ∀ number slot, session.slots.get? number = some slot → ¬slot.Covers position := by
  have hmem := hlaid.mem_tiles_of_covers (Or.inr hlot) hcovers
  constructor
  · have hlimit := (hlaid.tiles.within hmem).2
    rw [hlaid.usedBytes_eq_cursor]
    exact Nat.lt_of_lt_of_le hcovers.2 hlimit
  · intro number slot hheld hcovered
    have hother : ⟨number, slot⟩ ∈ lots.filter Lot.hasBytes :=
      hlaid.mem_tiles_of_covers (Or.inl hheld) hcovered
    obtain rfl := hlaid.tiles.eq_of_covers hother hmem hcovered hcovers
    exact hlaid.not_held_of_stranded hlot hheld

end Laid

/-- Only a reset takes a slot off the list of those stranded. -/
theorem mem_strandedFrom {session : Session} {stranded : List Lot} {more : List Step}
    (hreset : .wasReset true ∉ session.answers more) {lot : Lot} (hlot : lot ∈ stranded) :
    lot ∈ strandedFrom stranded session more := by
  induction more generalizing session stranded with
  | nil => exact hlot
  | cons step rest ih =>
    rw [answers, List.mem_cons, not_or] at hreset
    obtain ⟨hstep, hrest⟩ := hreset
    refine ih hrest ?_
    cases step with
    | free number =>
      rw [strand]
      split
      · exact hlot
      · split
        · exact List.mem_append_left _ hlot
        · exact hlot
    | reset =>
      rw [strand, if_neg]
      · exact hlot
      · intro hsuccess
        exact hstep (congrArg Answer.wasReset hsuccess.symm)
    | allocate _ | fill _ _ | write _ _ _ | read _ | describe | describeSlot _ => exact hlot

theorem exact_of_laid {session : Session} {stranded lots : List Lot}
    (hlaid : Laid session stranded lots) : Exact session stranded where
  usedBytes_eq := by
    rw [hlaid.usedBytes_eq_cursor, hlaid.cursor_eq_total, Lot.total_perm hlaid.onBooks,
      Lot.total_append, Lot.total_listed]
  covered _ hposition := hlaid.existsUnique_covers hposition
  within lot honBooks hbytes := by
    rw [hlaid.usedBytes_eq_cursor]
    exact (hlaid.tiles.within (hlaid.mem_tiles honBooks hbytes)).2
  free_last _ _ hheld hbytes := (hlaid.usedBytes_free hheld hbytes).1
  free_other _ _ hheld hbytes := (hlaid.usedBytes_free hheld hbytes).2
  free_reverse lengths := by
    intro taken
    obtain ⟨hpolicy, hcursor, -⟩ := restored_run session hlaid.policy_eq lengths
    rw [hlaid.usedBytes_eq_cursor, ← hcursor, usedBytes, hpolicy]
  stays more hreset lot hlot position hcovers := by
    obtain ⟨others, hlater⟩ := laid_run hlaid more
    exact hlater.stranded_apart (mem_strandedFrom hreset hlot) hcovers

/-- At every moment of a run on a new bump arena its cursor accounts exactly for the
slots that are held and those that are stranded. -/
theorem exact_run {hostMemory capacity maxInFlight : Nat} {arena : Arena}
    (heq : create hostMemory capacity maxInFlight .bump = .ok arena) (steps : List Step) :
    let start : Session := { arena }
    Exact (start.run steps) (start.strandedFrom [] steps) := by
  intro start
  have hholds : start.arena.Holds start.slots.toList := Holds.of_create heq
  obtain ⟨rfl, -⟩ := create_eq_ok heq
  have hbegin : Laid start [] [] :=
    ⟨rfl, hholds, List.Perm.refl [], List.Pairwise.nil, List.forall_mem_nil _,
      List.forall_mem_nil _, rfl⟩
  obtain ⟨lots, hlaid⟩ := laid_run hbegin steps
  exact exact_of_laid hlaid

/-- The first of four slots goes back and its bytes are stranded; the last one gives its
bytes back, and so does, after it, the one before it, over a slot without bytes. -/
theorem exact_run_around_stranded :
    let start : Session :=
      { arena := { capacity := 32, maxInFlight := 8, policy := .bump, freeSlots := [] } }
    let steps : List Step :=
      [.allocate 4, .allocate 6, .allocate 8, .allocate 0, .allocate 5, .free 0, .free 4, .free 2]
    create 1024 32 8 .bump = .ok start.arena ∧
      Exact (start.run steps) (start.strandedFrom [] steps) ∧
      start.strandedFrom [] steps = [⟨0, ⟨0, 4, 4⟩⟩] ∧ (start.run steps).arena.usedBytes = 10 := by
  intro start steps
  have hcreate : create 1024 32 8 .bump = .ok start.arena := rfl
  exact ⟨hcreate, exact_run hcreate steps, by decide, by decide⟩

end Session

end LogRelay.Arena
