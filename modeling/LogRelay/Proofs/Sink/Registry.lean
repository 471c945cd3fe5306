import LogRelay.Sink.Registry

/-!
# Snapshots of a registry

Sinks only ever join a registry at its tail, so a snapshot is an initial stretch of it.
Its generation tells how long a stretch, and a refreshed snapshot is the whole registry.
-/

namespace LogRelay.Registry

variable {β : Type}

/-- The snapshot is the registry as it was when its generation was the snapshot's. -/
structure Reflects (registry : Registry β) (snapshot : Snapshot β) : Prop where
  generation_eq : registry.generation = registry.sinks.length
  generation_le : snapshot.generation ≤ registry.generation
  sinks_eq : snapshot.sinks = registry.sinks.take snapshot.generation

variable {registry : Registry β} {snapshot : Snapshot β}

theorem reflects_new (hgeneration : registry.generation = registry.sinks.length) :
    registry.Reflects {} where
  generation_eq := hgeneration
  generation_le := Nat.zero_le _
  sinks_eq := rfl

theorem length_register (hgeneration : registry.generation = registry.sinks.length)
    (registration : Registration β) :
    (registry.register registration).2.generation =
      (registry.register registration).2.sinks.length := by
  simp only [register, List.length_append, List.length_singleton, hgeneration]

/-- A registration changes nothing about the sinks before it. -/
theorem Reflects.register (hreflects : registry.Reflects snapshot)
    (registration : Registration β) :
    (registry.register registration).2.Reflects snapshot where
  generation_eq := length_register hreflects.generation_eq registration
  generation_le := Nat.le_succ_of_le hreflects.generation_le
  sinks_eq := by
    have hle := hreflects.generation_le
    rw [hreflects.generation_eq] at hle
    rw [hreflects.sinks_eq, Registry.register, List.take_append_of_le_length hle]

theorem reflects_refresh (hreflects : registry.Reflects snapshot) :
    registry.Reflects (registry.refresh snapshot).1 ∧
      (registry.refresh snapshot).1.sinks = registry.sinks := by
  rw [refresh]
  split
  · next hsame =>
    refine ⟨hreflects, ?_⟩
    rw [hreflects.sinks_eq, ← hsame, hreflects.generation_eq, List.take_length]
  · refine ⟨⟨hreflects.generation_eq, Nat.le_refl _, ?_⟩, rfl⟩
    rw [hreflects.generation_eq, List.take_length]

end LogRelay.Registry
