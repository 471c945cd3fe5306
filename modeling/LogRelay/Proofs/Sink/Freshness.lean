import LogRelay.Proofs.Sink.Registry
import LogRelay.Sink.Session

/-!
# Snapshots over a run

A snapshot that is brought up to date looks at one counter to tell whether there is anything to
do.  The counter counts registrations, and the one that a snapshot keeps is the length of its
list, so that equal counters mean equal lists, whenever each snapshot was made and last brought
up to date.  A new snapshot is the registry from before the first registration, however many
there were by the time it is made, so it has to be brought up to date first.
-/

namespace LogRelay.Registry

variable {β : Type}

/-! ## What a run says of a snapshot -/

/-- The sinks that turns register, in order. -/
def registrations (turns : List (Turn β)) : List (Registration β) :=
  turns.filterMap fun
    | .step (.register registration) => some registration
    | .step (.refresh _) | .create _ => none

/-- One of the turns is `event`, and none behind it is `ending`. -/
def Since (event ending : Turn β → Prop) (turns : List (Turn β)) : Prop :=
  ∃ before turn behind, turns = before ++ turn :: behind ∧ event turn ∧
    ∀ later ∈ behind, ¬ending later

/-- Something was registered since the snapshot with this number was last brought up to date,
or since it was made. -/
def RegisteredSince (number : Nat) : List (Turn β) → Prop :=
  Since (fun turn => ∃ registration, turn = .step (.register registration))
    fun turn => turn = .step (.refresh number) ∨ turn = .create number

/-- The snapshot was made during the run, and not brought up to date since. -/
def Unrefreshed (number : Nat) : List (Turn β) → Prop :=
  Since (· = .create number) (· = .step (.refresh number))

/-- The snapshot misses sinks: some that were registered since, or, as a new one, all that were
registered before. -/
def Outdated (number : Nat) (turns : List (Turn β)) : Prop :=
  RegisteredSince number turns ∨ Unrefreshed number turns ∧ registrations turns ≠ []

variable {registry : Registry β} {snapshot : Snapshot β} {session : Session β}
  {turns : List (Turn β)} {last : Turn β} {number other : Nat}

@[simp]
theorem registrations_append (turns more : List (Turn β)) :
    registrations (turns ++ more) = registrations turns ++ registrations more :=
  List.filterMap_append

/-- The last turn is the event, or it is not the ending and the event was before. -/
theorem since_concat_iff {event ending : Turn β → Prop} :
    Since event ending (turns ++ [last]) ↔
      event last ∨ ¬ending last ∧ Since event ending turns := by
  constructor
  · rintro ⟨before, first, behind, heq, hevent, hbehind⟩
    rcases List.eq_nil_or_concat behind with rfl | ⟨earlier, final, rfl⟩
    · obtain ⟨-, hlast⟩ := List.append_inj' heq rfl
      obtain ⟨rfl, -⟩ := List.cons.inj hlast
      exact Or.inl hevent
    · rw [List.concat_eq_append] at heq hbehind
      rw [← List.cons_append, ← List.append_assoc] at heq
      obtain ⟨rfl, hlast⟩ := List.append_inj' heq rfl
      obtain ⟨rfl, -⟩ := List.cons.inj hlast
      obtain ⟨hearlier, hending⟩ := List.forall_mem_append.mp hbehind
      exact Or.inr ⟨hending last List.mem_cons_self, before, first, earlier, rfl, hevent, hearlier⟩
  · rintro (hevent | ⟨hending, before, first, behind, rfl, hevent, hbehind⟩)
    · exact ⟨turns, last, [], rfl, hevent, List.forall_mem_nil _⟩
    · refine ⟨before, first, behind ++ [last], by simp, hevent, ?_⟩
      exact List.forall_mem_append.mpr ⟨hbehind, List.forall_mem_singleton.mpr hending⟩

theorem not_since_nil {event ending : Turn β → Prop} : ¬Since event ending [] := by
  rintro ⟨before, first, behind, heq, -⟩
  simp at heq

theorem not_outdated_nil : ¬Outdated number ([] : List (Turn β)) := by
  rintro (hregistered | ⟨hcreated, -⟩)
  · exact not_since_nil hregistered
  · exact not_since_nil hcreated

theorem outdated_register (number : Nat) (turns : List (Turn β))
    (registration : Registration β) :
    Outdated number (turns ++ [.step (.register registration)]) :=
  Or.inl (since_concat_iff.mpr (Or.inl ⟨registration, rfl⟩))

theorem not_outdated_refresh (number : Nat) (turns : List (Turn β)) :
    ¬Outdated number (turns ++ [.step (.refresh number)]) := by
  simp [Outdated, RegisteredSince, Unrefreshed, since_concat_iff]

/-- Having just been made, a snapshot misses whatever there is. -/
theorem outdated_create_iff (number : Nat) (turns : List (Turn β)) :
    Outdated number (turns ++ [.create number]) ↔ registrations turns ≠ [] := by
  have hsame : registrations (turns ++ [.create number]) = registrations turns := by
    rw [registrations_append]
    exact List.append_nil _
  simp [Outdated, RegisteredSince, Unrefreshed, since_concat_iff, hsame]

/-- What is done with other snapshots does not matter. -/
theorem outdated_concat_iff (hlast : last = .step (.refresh other) ∨ last = .create other)
    (hother : other ≠ number) :
    Outdated number (turns ++ [last]) ↔ Outdated number turns := by
  have hnone : registrations (turns ++ [last]) = registrations turns := by
    rcases hlast with rfl | rfl <;> simp [registrations]
  rw [Outdated, RegisteredSince, Unrefreshed, since_concat_iff, since_concat_iff, hnone]
  rcases hlast with rfl | rfl <;> simp [hother, Outdated, RegisteredSince, Unrefreshed]

theorem generation_refresh (registry : Registry β) (snapshot : Snapshot β) :
    (registry.refresh snapshot).1.generation = registry.generation := by
  rw [refresh]
  split
  · next hsame => exact hsame.symm
  · rfl

theorem Reflects.isPrefix (hreflects : registry.Reflects snapshot) :
    snapshot.sinks <+: registry.sinks := by
  rw [hreflects.sinks_eq]
  exact List.take_prefix _ _

/-! ## What a run leads to -/

/-- The session that `turns` lead to from the beginning. -/
structure Traces (turns : List (Turn β)) (session : Session β) : Prop where
  sinks_eq : session.registry.sinks = registrations turns
  generation_eq : session.registry.generation = session.registry.sinks.length
  reflects : ∀ number, session.registry.Reflects (session.snapshots number)
  generation_lt_iff : ∀ number,
    (session.snapshots number).generation < session.registry.generation ↔ Outdated number turns

theorem traces_new : Traces [] ({} : Session β) where
  sinks_eq := rfl
  generation_eq := rfl
  reflects _ := reflects_new rfl
  generation_lt_iff _ := iff_of_false (Nat.lt_irrefl 0) not_outdated_nil

namespace Traces

theorem register (htraces : Traces turns session) (registration : Registration β) :
    Traces (turns ++ [.step (.register registration)])
      (session.step (.register registration)).1 where
  sinks_eq := by
    rw [registrations_append, ← htraces.sinks_eq]
    rfl
  generation_eq := length_register htraces.generation_eq registration
  reflects number := (htraces.reflects number).register registration
  generation_lt_iff number := by
    have hle := (htraces.reflects number).generation_le
    exact iff_of_true (Nat.lt_succ_of_le hle) (outdated_register number turns registration)

theorem refresh (htraces : Traces turns session) (number : Nat) :
    Traces (turns ++ [.step (.refresh number)]) (session.step (.refresh number)).1 := by
  refine ⟨?_, htraces.generation_eq, ?_, ?_⟩
  · rw [registrations_append, ← htraces.sinks_eq]
    exact (List.append_nil _).symm
  · intro other
    simp only [Session.step]
    split
    · exact (reflects_refresh (htraces.reflects number)).1
    · exact htraces.reflects other
  · intro other
    simp only [Session.step]
    split
    · next heq =>
      rw [generation_refresh, heq]
      exact iff_of_false (Nat.lt_irrefl _) (not_outdated_refresh number turns)
    · next hne =>
      rw [outdated_concat_iff (Or.inl rfl) (Ne.symm hne)]
      exact htraces.generation_lt_iff other

theorem create (htraces : Traces turns session) (number : Nat) :
    Traces (turns ++ [.create number]) (session.create number) := by
  refine ⟨?_, htraces.generation_eq, ?_, ?_⟩
  · rw [registrations_append, ← htraces.sinks_eq]
    exact (List.append_nil _).symm
  · intro other
    simp only [Session.create]
    split
    · exact reflects_new htraces.generation_eq
    · exact htraces.reflects other
  · intro other
    simp only [Session.create]
    split
    · next heq =>
      rw [heq, outdated_create_iff, htraces.generation_eq, htraces.sinks_eq]
      exact List.length_pos_iff
    · next hne =>
      rw [outdated_concat_iff (Or.inr rfl) (Ne.symm hne)]
      exact htraces.generation_lt_iff other

theorem turn (htraces : Traces turns session) (turn : Turn β) :
    Traces (turns ++ [turn]) (session.turn turn) := by
  cases turn with
  | step step =>
    cases step with
    | register registration => exact htraces.register registration
    | refresh number => exact htraces.refresh number
  | create number => exact htraces.create number

theorem after (htraces : Traces turns session) (more : List (Turn β)) :
    Traces (turns ++ more) (session.after more) := by
  induction more generalizing turns session with
  | nil =>
    rw [List.append_nil]
    exact htraces
  | cons turn rest ih =>
    rw [List.append_cons]
    exact ih (htraces.turn turn)

/-- Sinks that are registered stay where they are. -/
theorem isPrefix_after (htraces : Traces turns session) (more : List (Turn β)) :
    session.registry.sinks <+: (session.after more).registry.sinks := by
  rw [htraces.sinks_eq, (htraces.after more).sinks_eq, registrations_append]
  exact List.prefix_append _ _

theorem generation_eq_iff (htraces : Traces turns session) (number : Nat) :
    session.registry.generation = (session.snapshots number).generation ↔
      ¬Outdated number turns := by
  have hle := (htraces.reflects number).generation_le
  rw [← htraces.generation_lt_iff number]
  omega

/-- With nothing new in the registry a snapshot is left alone. -/
theorem step_refresh_of_not_outdated (htraces : Traces turns session)
    (hnot : ¬Outdated number turns) :
    session.step (.refresh number) = (session, .refreshed false) := by
  have hsame := (htraces.generation_eq_iff number).mpr hnot
  have hsnapshots : (fun other => if other = number then session.snapshots number
      else session.snapshots other) = session.snapshots := by
    funext other
    split
    · next heq => rw [heq]
    · rfl
  simp only [Session.step, Registry.refresh, if_pos hsame, hsnapshots]

theorem step_refresh_of_outdated (htraces : Traces turns session)
    (houtdated : Outdated number turns) :
    (session.step (.refresh number)).2 = .refreshed true := by
  have hdiffers := mt (htraces.generation_eq_iff number).mp (not_not_intro houtdated)
  simp only [Session.step, Registry.refresh, if_neg hdiffers]

end Traces

/-! ## Every run -/

/-- What can be said of a registry and its snapshots after `turns`. -/
structure Fresh (turns : List (Turn β)) (session : Session β) : Prop where
  sinks_eq : session.registry.sinks = registrations turns
  /-- A sink is registered behind all others. -/
  registered : ∀ registration, (session.step (.register registration)).2 =
    .registered (registrations turns).length
  isPrefix : ∀ number, (session.snapshots number).sinks <+: session.registry.sinks
  refreshed : ∀ number,
    ((session.step (.refresh number)).1.snapshots number).sinks = session.registry.sinks
  changed_iff : ∀ number,
    (session.step (.refresh number)).2 = .refreshed true ↔ Outdated number turns
  unchanged : ∀ number, ¬Outdated number turns →
    session.step (.refresh number) = (session, .refreshed false)
  /-- Neither the order of the sinks nor their names change any more. -/
  stays : ∀ more : List (Turn β),
    session.registry.sinks <+: (session.after more).registry.sinks ∧
      session.registry.names <+: (session.after more).registry.names
  /-- Counters that are kept in a machine word say the same. -/
  words_eq_iff : ∀ number, UInt64.ofNat session.registry.generation =
      UInt64.ofNat (session.snapshots number).generation ↔
    session.registry.generation = (session.snapshots number).generation

theorem ofNat_eq_ofNat_iff {left right : Nat} (hleft : left < UInt64.size)
    (hright : right < UInt64.size) : UInt64.ofNat left = UInt64.ofNat right ↔ left = right := by
  constructor
  · intro heq
    have hnumbers := congrArg UInt64.toNat heq
    rwa [UInt64.toNat_ofNat_of_lt' hleft, UInt64.toNat_ofNat_of_lt' hright] at hnumbers
  · exact congrArg UInt64.ofNat

/-- Whatever is registered, and whenever snapshots are made and brought up to date, no snapshot
is ever taken for current that is not. -/
theorem fresh_after (turns : List (Turn β))
    (hfew : (registrations turns).length < UInt64.size) :
    Fresh turns (Session.after {} turns) := by
  have htraces : Traces turns (Session.after {} turns) := traces_new.after turns
  refine ⟨htraces.sinks_eq, ?_, fun number => (htraces.reflects number).isPrefix, ?_, ?_,
    fun number => htraces.step_refresh_of_not_outdated, ?_, ?_⟩
  · intro registration
    rw [← htraces.sinks_eq]
    rfl
  · intro number
    simp only [Session.step, if_true]
    exact (reflects_refresh (htraces.reflects number)).2
  · intro number
    by_cases houtdated : Outdated number turns
    · exact iff_of_true (htraces.step_refresh_of_outdated houtdated) houtdated
    · rw [htraces.step_refresh_of_not_outdated houtdated]
      exact iff_of_false (by simp) houtdated
  · intro more
    have hinitial := htraces.isPrefix_after more
    exact ⟨hinitial, hinitial.map _⟩
  · intro number
    have hle := (htraces.reflects number).generation_le
    have hgeneration : (Session.after {} turns).registry.generation < UInt64.size := by
      rw [htraces.generation_eq, htraces.sinks_eq]
      exact hfew
    exact ofNat_eq_ofNat_iff hgeneration (Nat.lt_of_le_of_lt hle hgeneration)

/-- Of three snapshots the one that was brought up to date between two registrations misses the
later sink, the one that was not brought up to date misses both, and so does the one that was
made when both were registered. -/
theorem fresh_after_between :
    let file : Registration Unit := ⟨"file", some ()⟩
    let mute : Registration Unit := ⟨"mute", none⟩
    let turns : List (Turn Unit) :=
      [.step (.register file), .step (.refresh 0), .step (.register mute), .create 2]
    let session := Session.after {} turns
    (registrations turns).length < UInt64.size ∧ Fresh turns session ∧
      (session.snapshots 0).sinks = [file] ∧ (session.snapshots 1).sinks = [] ∧
      (session.snapshots 2).sinks = [] ∧
      ((session.step (.refresh 2)).1.snapshots 2).sinks = [file, mute] ∧
      (session.step (.refresh 2)).2 = .refreshed true ∧
      ((session.step (.refresh 2)).1.step (.refresh 2)).2 = .refreshed false := by
  intro file mute turns session
  have hfew : (registrations turns).length < UInt64.size := by decide
  exact ⟨hfew, fresh_after turns hfew, rfl, rfl, rfl, rfl, rfl, rfl⟩

/-- A snapshot that is made after a registration changes when it is first brought up to date,
although nothing was registered since it was made. -/
theorem refresh_changes_new_snapshot :
    let turns : List (Turn Unit) := [.step (.register ⟨"file", some ()⟩), .create 0]
    let session := Session.after {} turns
    (registrations turns).length < UInt64.size ∧ ¬RegisteredSince 0 turns ∧
      (session.step (.refresh 0)).2 = .refreshed true ∧
      (session.step (.refresh 0)).1.snapshots 0 ≠ session.snapshots 0 := by
  intro turns session
  have hnone : ¬RegisteredSince 0 turns := by
    rw [show turns = [.step (.register ⟨"file", some ()⟩)] ++ [.create 0] from rfl,
      RegisteredSince, since_concat_iff]
    simp
  have hempty : (session.snapshots 0).sinks = [] := rfl
  have hfull : ((session.step (.refresh 0)).1.snapshots 0).sinks = [⟨"file", some ()⟩] := rfl
  refine ⟨by decide, hnone, rfl, fun heq => ?_⟩
  rw [heq, hempty] at hfull
  exact absurd hfull (by simp)

end LogRelay.Registry
