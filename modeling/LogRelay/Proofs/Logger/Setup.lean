import LogRelay.Proofs.Logger.Verdict

/-!
# What a configuration is good for

A configuration is looked at before anything is made of it, and arena and queue look again at
what they are given.  What passes the first look leaves them nothing to refuse but the size of
the region, and on the logger that comes of it the largest message is the whole arena or one
place of a slab.
-/

namespace LogRelay

variable {β ω : Type}

namespace Config

/-- What makes a configuration usable. -/
structure Usable (config : Config) : Prop where
  headerSize_le : Message.headerSize ≤ config.arenaCapacity
  queueCapacity_pos : 0 < config.queueCapacity
  maxInFlight_pos : 0 < config.maxInFlight
  formatBufferLength_pos : 0 < config.formatBufferLength
  threadName : config.consumerThreadName.contains '\x00' = false
  slotSize : ∀ slotSize, config.policy = .slab slotSize →
    Message.headerSize ≤ slotSize ∧ slotSize ≤ config.arenaCapacity

/-- The most bytes that one message can take. -/
def messageRoom (config : Config) : Nat :=
  match config.policy with
  | .bump => config.arenaCapacity
  | .slab slotSize => slotSize

variable {config : Config}

theorem find?_positiveSettings_eq_none :
    config.positiveSettings.find? (·.2 = 0) = none ↔
      0 < config.arenaCapacity ∧ 0 < config.queueCapacity ∧ 0 < config.maxInFlight ∧
        0 < config.formatBufferLength := by
  simp [positiveSettings, Nat.pos_iff_ne_zero]

/-- The checks let through exactly the usable configurations. -/
theorem validate_eq_ok_iff : config.validate = .ok () ↔ config.Usable := by
  rw [validate]
  constructor
  · intro hvalid
    split at hvalid
    · exact absurd hvalid (by simp)
    · next hnone =>
      obtain ⟨-, hqueue, hlimit, hbuffer⟩ := find?_positiveSettings_eq_none.mp hnone
      split at hvalid
      · exact absurd hvalid (by simp)
      · next hheader =>
        split at hvalid
        · exact absurd hvalid (by simp)
        · next hname =>
          refine ⟨Nat.le_of_not_lt hheader, hqueue, hlimit, hbuffer,
            Bool.eq_false_iff.mpr hname, ?_⟩
          intro slotSize hpolicy
          simp only [hpolicy] at hvalid
          split at hvalid
          · exact absurd hvalid (by simp)
          · next hrange =>
            obtain ⟨hleast, hmost⟩ := not_or.mp hrange
            exact ⟨Nat.le_of_not_lt hleast, Nat.le_of_not_lt hmost⟩
  · rintro ⟨hheader, hqueue, hlimit, hbuffer, hname, hslot⟩
    have hcapacity : 0 < config.arenaCapacity := Nat.lt_of_lt_of_le (by decide) hheader
    rw [find?_positiveSettings_eq_none.mpr ⟨hcapacity, hqueue, hlimit, hbuffer⟩]
    simp only [if_neg (Nat.not_lt_of_le hheader), hname, Bool.false_eq_true, if_false]
    split
    · rfl
    · next slotSize hpolicy =>
      obtain ⟨hleast, hmost⟩ := hslot slotSize hpolicy
      rw [if_neg (not_or.mpr ⟨Nat.not_lt_of_le hleast, Nat.not_lt_of_le hmost⟩)]

namespace Usable

theorem arenaCapacity_pos (husable : config.Usable) : 0 < config.arenaCapacity :=
  Nat.lt_of_lt_of_le (by decide) husable.headerSize_le

/-- A slab has a place at least. -/
theorem slotCount_pos (husable : config.Usable) {slotSize : Nat}
    (hpolicy : config.policy = .slab slotSize) : 0 < config.arenaCapacity / slotSize := by
  obtain ⟨hleast, hmost⟩ := husable.slotSize slotSize hpolicy
  exact Nat.div_pos hmost (Nat.lt_of_lt_of_le (by decide) hleast)

theorem headerSize_le_messageRoom (husable : config.Usable) :
    Message.headerSize ≤ config.messageRoom := by
  rw [messageRoom]
  split
  · exact husable.headerSize_le
  · next slotSize hpolicy => exact (husable.slotSize slotSize hpolicy).1

end Usable

end Config

variable {config : Config} {hostMemory : Nat}

/-! ## Making the parts -/

/-- The arena of a usable configuration only looks at the size of its region. -/
theorem Arena.create_of_usable (husable : config.Usable) :
    create hostMemory config.arenaCapacity config.maxInFlight config.policy =
      if addressSpace < config.arenaCapacity then .error .arenaBeyondAddressSpace
      else if hostMemory < config.arenaCapacity then
        .error (.arenaBeyondMemory config.arenaCapacity)
      else
        .ok
          { capacity := config.arenaCapacity
            maxInFlight := config.maxInFlight
            policy := config.policy
            freeSlots := allSlots config.policy config.arenaCapacity } := by
  have hcapacity := Nat.ne_of_gt husable.arenaCapacity_pos
  have hlimit := Nat.ne_of_gt husable.maxInFlight_pos
  have hslot : config.policy ≠ .slab 0 := by
    intro hpolicy
    exact absurd (husable.slotSize 0 hpolicy).1 (by decide)
  have hcount : ¬(config.policy ≠ .bump ∧ slotCount config.policy config.arenaCapacity = 0) := by
    rintro ⟨hbump, hnone⟩
    cases hpolicy : config.policy with
    | bump => exact hbump hpolicy
    | slab slotSize =>
      rw [hpolicy] at hnone
      exact absurd hnone (Nat.ne_of_gt (husable.slotCount_pos hpolicy))
  rw [create, if_neg hcapacity, if_neg hlimit, if_neg hslot, if_neg hcount]

/-- The queue of a usable configuration can be made. -/
theorem Queue.create_of_usable {α : Type} (husable : config.Usable) :
    create config.queueCapacity = .ok ({ capacity := config.queueCapacity } : Queue α) :=
  if_neg (Nat.ne_of_gt husable.queueCapacity_pos)

/-- As long as no slot is out there is room for every message that is not too large. -/
theorem Arena.shortage?_new_eq_none_iff {arena : Arena} (husable : config.Usable)
    (hcreate : create hostMemory config.arenaCapacity config.maxInFlight config.policy = .ok arena)
    (length : Nat) : arena.shortage? config length = none ↔ length ≤ config.messageRoom := by
  obtain ⟨rfl, -⟩ := create_eq_ok hcreate
  rw [shortage?, if_neg (Nat.ne_of_lt husable.maxInFlight_pos), Config.messageRoom]
  cases hpolicy : config.policy with
  | bump => simp [usedBytes]
  | slab slotSize =>
    have hcount := husable.slotCount_pos hpolicy
    have hfree : ¬∀ index < config.arenaCapacity / slotSize,
        index ∉ allSlots (.slab slotSize) config.arenaCapacity := by
      intro htaken
      exact htaken 0 hcount (List.mem_range.mpr hcount)
    simp [hfree]

namespace Logger

variable {texts : StaticTexts} {world : ω} {logger : Logger β ω} {caller : Caller}
  {request : Request} {format : String}

/-- What making a logger comes to is what making its arena comes to. -/
theorem create_of_usable (husable : config.Usable) :
    (create hostMemory texts world config : Except SetupFault (Logger β ω)) =
      (Arena.create hostMemory config.arenaCapacity config.maxInFlight config.policy).map
        fun arena =>
          { config, arena, queue := { capacity := config.queueCapacity }, texts, world } := by
  rw [create, Config.validate_eq_ok_iff.mpr husable, Queue.create_of_usable husable]
  cases Arena.create hostMemory config.arenaCapacity config.maxInFlight config.policy <;> rfl

theorem create_of_validate_eq_error {fault : SetupFault} (hfault : config.validate = .error fault) :
    (create hostMemory texts world config : Except SetupFault (Logger β ω)) = .error fault := by
  rw [create, hfault]
  rfl

/-! ## The first message -/

/-- A new logger takes every message that is not too large and whose arguments match. -/
theorem emitIn_new_eq_ok_iff (hcreate : create hostMemory texts world config = .ok logger)
    (hentered : logger.enters caller.taking = true) (hformat : request.format = some format)
    (hmatches : ∃ records, Record.Feeds (Record.asked format) request.arguments records) :
    (logger.emitIn caller request).2 = .ok () ↔
      16 + (Format.layout format).encodedBytes ≤ config.messageRoom := by
  have hwithin : logger.Within config := .of_create hcreate
  obtain ⟨arena, hvalid, harena, rfl⟩ := create_eq_ok hcreate
  have husable := Config.validate_eq_ok_iff.mp hvalid
  obtain ⟨bytes, hcaptured⟩ := Record.exists_captureAll_iff.mpr hmatches
  have hroom := Arena.shortage?_new_eq_none_iff husable harena
    (16 + (Format.layout format).encodedBytes)
  have hqueue : 0 ≠ config.queueCapacity := Nat.ne_of_lt husable.queueCapacity_pos
  rw [snd_emitIn hwithin (Arena.Holds.of_create harena).placed hentered, ← hroom]
  simp only [verdict, hformat]
  cases hshort : arena.shortage? config (16 + (Format.layout format).encodedBytes) with
  | some cause => simp
  | none =>
    simp only [hcaptured, Queue.length, List.length_nil, Bool.false_eq_true, if_false]
    exact iff_of_true (if_neg hqueue) trivial

/-- Without conversions there is nothing but the header to find room for. -/
theorem emitIn_new_of_plain (hcreate : create hostMemory texts world config = .ok logger)
    (hentered : logger.enters caller.taking = true) (hformat : request.format = some format)
    (hplain : Format.conversions format = []) (harguments : request.arguments = []) :
    (logger.emitIn caller request).2 = .ok () := by
  obtain ⟨arena, hvalid, -, -⟩ := create_eq_ok hcreate
  have hroom := (Config.validate_eq_ok_iff.mp hvalid).headerSize_le_messageRoom
  have hmatches : ∃ records, Record.Feeds (Record.asked format) request.arguments records := by
    rw [Record.asked, hplain, harguments]
    exact ⟨[], .nil⟩
  rw [emitIn_new_eq_ok_iff hcreate hentered hformat hmatches, Format.layout, hplain]
  exact hroom

/-! ## Every configuration -/

/-- What a configuration comes to: whether there is a logger of it, and what that one takes. -/
structure Serves (hostMemory : Nat) (texts : StaticTexts) (world : ω) (β : Type)
    (config : Config) : Prop where
  created_iff : (∃ logger : Logger β ω, create hostMemory texts world config = .ok logger) ↔
    config.validate = .ok () ∧ config.arenaCapacity ≤ 2 ^ 63 - 8
  /-- Of what arena and queue might refuse only the size of the region is left. -/
  arena_fault : config.validate = .ok () → ∀ fault,
    Arena.create hostMemory config.arenaCapacity config.maxInFlight config.policy = .error fault →
      fault = .arenaBeyondAddressSpace
  queue_created : config.validate = .ok () →
    ∃ queue : Queue Message, Queue.create config.queueCapacity = .ok queue
  fault : ∀ fault, (create hostMemory texts world config : Except SetupFault (Logger β ω)) =
      .error fault →
    config.validate = .error fault ∨ config.validate = .ok () ∧ fault = .arenaBeyondAddressSpace
  emits_iff : ∀ logger : Logger β ω, create hostMemory texts world config = .ok logger →
    ∀ caller, logger.enters caller.taking = true → ∀ request format,
      request.format = some format →
        (∃ records, Record.Feeds (Record.asked format) request.arguments records) →
          ((logger.emitIn caller request).2 = .ok () ↔
            16 + (Format.layout format).encodedBytes ≤ config.messageRoom)
  emits_plain : ∀ logger : Logger β ω, create hostMemory texts world config = .ok logger →
    ∀ caller, logger.enters caller.taking = true → ∀ request format,
      request.format = some format → Format.conversions format = [] → request.arguments = [] →
        (logger.emitIn caller request).2 = .ok ()

/-- With memory enough an arena of usable settings can fail for its size alone. -/
theorem arena_fault_of_usable (husable : config.Usable)
    (hmemory : config.arenaCapacity ≤ hostMemory) {fault : SetupFault}
    (hfault : Arena.create hostMemory config.arenaCapacity config.maxInFlight config.policy =
      .error fault) : fault = .arenaBeyondAddressSpace := by
  rw [Arena.create_of_usable husable, if_neg (Nat.not_lt_of_le hmemory)] at hfault
  split at hfault
  · exact (Except.error.inj hfault).symm
  · exact absurd hfault (by simp)

theorem exists_create_iff (hmemory : config.arenaCapacity ≤ hostMemory) :
    (∃ logger : Logger β ω, create hostMemory texts world config = .ok logger) ↔
      config.validate = .ok () ∧ config.arenaCapacity ≤ 2 ^ 63 - 8 := by
  cases hvalid : config.validate with
  | error fault => simp [create_of_validate_eq_error hvalid]
  | ok =>
    have hspace : Arena.addressSpace = 2 ^ 63 - 8 := rfl
    have husable := Config.validate_eq_ok_iff.mp hvalid
    rw [create_of_usable husable, Arena.create_of_usable husable,
      if_neg (Nat.not_lt_of_le hmemory), ← hspace]
    by_cases hsize : Arena.addressSpace < config.arenaCapacity
    · simp [hsize, Except.map]
    · simp [hsize, Except.map, Nat.le_of_not_lt hsize]

/-- No logger comes of a configuration that fails its check, or whose arena is beyond what can be
addressed. -/
theorem fault_of_create (hmemory : config.arenaCapacity ≤ hostMemory) {fault : SetupFault}
    (hfault : (create hostMemory texts world config : Except SetupFault (Logger β ω)) =
      .error fault) :
    config.validate = .error fault ∨
      config.validate = .ok () ∧ fault = .arenaBeyondAddressSpace := by
  cases hvalid : config.validate with
  | error first =>
    rw [create_of_validate_eq_error hvalid] at hfault
    exact Or.inl (congrArg Except.error (Except.error.inj hfault))
  | ok =>
    have husable := Config.validate_eq_ok_iff.mp hvalid
    rw [create_of_usable husable] at hfault
    cases harena : Arena.create hostMemory config.arenaCapacity config.maxInFlight
        config.policy with
    | error first =>
      rw [harena] at hfault
      obtain rfl := Except.error.inj hfault
      exact Or.inr ⟨rfl, arena_fault_of_usable husable hmemory harena⟩
    | ok arena =>
      rw [harena] at hfault
      exact absurd hfault (by simp [Except.map])

/-- On a host that has the memory, a configuration that passes its check makes a logger unless its
arena is beyond what can be addressed, and the logger takes what fits into its arena. -/
theorem serves_of_le {config : Config} {hostMemory : Nat}
    (hmemory : config.arenaCapacity ≤ hostMemory) (texts : StaticTexts) (world : ω) (β : Type) :
    Serves hostMemory texts world β config where
  created_iff := exists_create_iff hmemory
  arena_fault hvalid _ hfault :=
    arena_fault_of_usable (Config.validate_eq_ok_iff.mp hvalid) hmemory hfault
  queue_created hvalid := ⟨_, Queue.create_of_usable (Config.validate_eq_ok_iff.mp hvalid)⟩
  fault _ hfault := fault_of_create hmemory hfault
  emits_iff _ hcreate _ hentered _ _ hformat hmatches :=
    emitIn_new_eq_ok_iff hcreate hentered hformat hmatches
  emits_plain _ hcreate _ hentered _ _ hformat hplain harguments :=
    emitIn_new_of_plain hcreate hentered hformat hplain harguments

/-- A slab with one place of forty bytes takes a message with one number, from an interrupt handler
who gets at the arena at the second try, but none with five. -/
theorem serves_of_le_one_place :
    let config : Config :=
      { arenaCapacity := 64, queueCapacity := 1, maxInFlight := 1, formatBufferLength := 1,
        interruptLockAttempts := 2, policy := .slab 40 }
    let arena : Arena :=
      { capacity := 64, maxInFlight := 1, policy := .slab 40, freeSlots := [0] }
    let logger : Logger Unit Unit :=
      { config, arena, queue := { capacity := 1 }, texts := [], world := () }
    let handler : Caller := { taking := .trying fun attempt => attempt == 1 }
    let one : Request := ⟨"net", "poll", .info, some "%d", [.int 7]⟩
    let five : Request := ⟨"net", "poll", .info, some "%d%d%d%d%d", List.replicate 5 (.int 7)⟩
    config.arenaCapacity ≤ 64 ∧ Serves 64 [] () Unit config ∧
      create 64 [] () config = .ok logger ∧ logger.enters handler.taking = true ∧
      config.messageRoom = 40 ∧ (logger.emitIn handler one).2 = .ok () ∧
      (logger.emitIn handler five).2 = .error (.resourceExhausted (.slotTooSmall 41 40)) := by
  intro config arena logger handler one five
  have hmemory : config.arenaCapacity ≤ 64 := Nat.le_refl 64
  have hvalid : config.validate = .ok () := by
    simp [Config.validate, Config.positiveSettings, Message.headerSize, config]
  have harena : Arena.create 64 config.arenaCapacity config.maxInFlight config.policy =
      .ok arena :=
    show Arena.create 64 64 1 (.slab 40) = .ok arena from rfl
  have hcreate : create 64 [] () config = .ok logger := by
    rw [create_of_usable (Config.validate_eq_ok_iff.mp hvalid), harena]
    rfl
  exact ⟨hmemory, serves_of_le hmemory _ () Unit, hcreate, by decide +kernel, rfl,
    by decide +kernel, by decide +kernel⟩

end Logger

end LogRelay
