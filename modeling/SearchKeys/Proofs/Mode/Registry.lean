/-
# Registering parse modes

A registry that starts empty or with the standard modes shows what has been registered in it and
nothing else. Its ids are those of the registrations, each once and in order; under each of them
stands the constructor that was registered last. All that can be asked of a registry follows from
these two facts.

## Main definitions

* `Registration`: an id with the constructor of its mode.
* `Registry.Made`: the registrations that have made a registry.
* `Registry.Reflects`: what a registry keeps of its registrations.

## Main results

* `Registry.Reflects.register`: one more registration is reflected.
* `Registry.Made.reflects`: so are all that have made a registry.
* `Registry.observed_of_made`: what can be asked of a registry, by its registrations.
-/

import SearchKeys.Proofs.Text.ByteOrder
import SearchKeys.Settings

namespace SearchKeys

/-! ### Dictionaries -/

namespace Dictionary

variable {α : Type} {key other : String} {value : α} {entries : List (String × α)}

theorem mem_keys_iff : key ∈ entries.map Prod.fst ↔ (entries.lookup key).isSome := by
  rw [List.lookup_isSome_iff, List.mem_map]
  simp only [beq_iff_eq, @eq_comm _ key]

/-- The keys after an insertion. -/
theorem mem_keys_insert : other ∈ (insert key value entries).map Prod.fst ↔
    other = key ∨ other ∈ entries.map Prod.fst := by
  rw [mem_keys_iff, mem_keys_iff, lookup_insert]
  by_cases same : other = key <;> simp [same]

/-- A value is put where its key belongs. -/
theorem pairwise_insert (increasing : (entries.map Prod.fst).Pairwise (· < ·)) :
    ((insert key value entries).map Prod.fst).Pairwise (· < ·) := by
  induction entries with
  | nil => exact List.pairwise_singleton _ _
  | cons entry rest ih =>
    obtain ⟨first, previous⟩ := entry
    obtain ⟨behind, increasing'⟩ := List.pairwise_cons.1 increasing
    rw [insert]
    split
    · next before =>
      refine List.pairwise_cons.2 ⟨fun other member => ?_, increasing⟩
      rcases List.mem_cons.1 member with rfl | inRest
      · exact before
      · exact String.lt_trans before (behind other inRest)
    · split
      · next notBefore same =>
        subst same
        exact increasing
      · next notBefore different =>
        have after : first < key := by
          by_contra notAfter
          exact different (String.le_antisymm (String.not_lt.1 notAfter)
            (String.not_lt.1 notBefore))
        refine List.pairwise_cons.2 ⟨fun other member => ?_, ih increasing'⟩
        rcases mem_keys_insert.1 member with rfl | inRest
        · exact after
        · exact behind other inRest

/-- No entry hides another one. -/
theorem lookup_eq_of_mem (increasing : (entries.map Prod.fst).Pairwise (· < ·))
    (member : (key, value) ∈ entries) : entries.lookup key = some value := by
  induction entries with
  | nil => cases member
  | cons entry rest ih =>
    obtain ⟨first, previous⟩ := entry
    obtain ⟨behind, increasing'⟩ := List.pairwise_cons.1 increasing
    rw [lookup_cons]
    rcases List.mem_cons.1 member with here | inRest
    · cases here
      exact if_pos rfl
    · have after := behind key (List.mem_map_of_mem inRest)
      have different : key ≠ first := fun same => String.lt_irrefl _ (same ▸ after)
      rw [if_neg different, ih increasing' inRest]

end Dictionary

/-- An id with the constructor that is registered under it. -/
abbrev Registration := String × (Conjunction → Mode)

namespace Registry

variable {registry : Registry} {calls : List Registration} {id : String}
  {conjunction : Conjunction} {mode : Mode}

/-! ### Questions to a registry -/

/-- A mode can be created exactly if it is registered. -/
theorem exists_create_iff (registry : Registry) (conjunction : Conjunction) :
    (∃ mode, registry.create id conjunction = .ok mode) ↔ registry.contains id := by
  rw [contains, List.contains_iff_mem, ids, Dictionary.mem_keys_iff, create]
  cases registry.entries.lookup id <;> simp

/-- What is created is one of all the modes. -/
theorem mem_createAll (created : registry.create id conjunction = .ok mode) :
    mode ∈ registry.createAll conjunction := by
  unfold create at created
  split at created
  · next constructor found =>
    cases created
    obtain ⟨before, after, split, _⟩ := List.lookup_eq_some_iff.1 found
    exact List.mem_map.2 ⟨(id, constructor), by simp [split], rfl⟩
  · cases created

/-- Settings are warned about exactly if they select no mode. -/
theorem warnings_eq (registry : Registry) (settings : Settings) :
    settings.warnings registry =
      match settings.parse.createMode registry with
      | .ok _ => []
      | .error _ => [.unknownMode settings.parse.mode registry.ids] := by
  rw [Settings.warnings, ParseSettings.createMode]
  split
  · next registered =>
    obtain ⟨mode, created⟩ :=
      (exists_create_iff registry settings.parse.conjunction).2 registered
    rw [created]
  · next unknown =>
    rw [← exists_create_iff registry settings.parse.conjunction] at unknown
    cases created : registry.create settings.parse.mode settings.parse.conjunction with
    | ok mode => exact absurd ⟨mode, created⟩ unknown
    | error _ => rfl

/-! ### Registrations -/

/-- The registrations that have made a registry, first to last. -/
inductive Made : Registry → List Registration → Prop
  | empty : Made .empty []
  | standard : Made .standard
      [("complex", Mode.complex), ("terms", Mode.terms), ("phrase", Mode.phrase)]
  | register {registry : Registry} {calls : List Registration} (made : Made registry calls)
      (id : String) (constructor : Conjunction → Mode) :
    Made (registry.register id constructor) (calls ++ [(id, constructor)])

/-- A registry keeps the last constructor of every id, in the order of the ids. -/
structure Reflects (registry : Registry) (calls : List Registration) : Prop where
  /-- Every id stands once, and in its place. -/
  increasing : registry.ids.Pairwise (· < ·)
  /-- Under an id stands the last constructor that was registered under it. -/
  lookup_eq (id : String) : registry.entries.lookup id = calls.reverse.lookup id

theorem reflects_empty : empty.Reflects [] :=
  ⟨List.Pairwise.nil, fun _ => rfl⟩

/-- A registration counts for its id and for no other one. -/
theorem Reflects.register (reflects : registry.Reflects calls) (id : String)
    (constructor : Conjunction → Mode) :
    (registry.register id constructor).Reflects (calls ++ [(id, constructor)]) := by
  refine ⟨Dictionary.pairwise_insert reflects.increasing, fun other => ?_⟩
  rw [List.reverse_concat, Dictionary.lookup_cons, ← reflects.lookup_eq]
  exact Dictionary.lookup_insert ..

theorem Made.reflects (made : Made registry calls) : registry.Reflects calls := by
  induction made with
  | empty => exact reflects_empty
  | standard =>
    exact ((reflects_empty.register "complex" Mode.complex).register "terms" Mode.terms).register
      "phrase" Mode.phrase
  | register _ id constructor ih => exact ih.register id constructor

/-- The ids are exactly those of the registrations. -/
theorem Reflects.mem_ids_iff (reflects : registry.Reflects calls) :
    id ∈ registry.ids ↔ id ∈ calls.map Prod.fst := by
  rw [ids, Dictionary.mem_keys_iff, reflects.lookup_eq, ← Dictionary.mem_keys_iff]
  simp

/-- All modes are those that can be created under the ids. -/
theorem Reflects.map_createAll (reflects : registry.Reflects calls) (conjunction : Conjunction) :
    (registry.createAll conjunction).map .ok =
      registry.ids.map (registry.create · conjunction) := by
  rw [createAll, ids, List.map_map, List.map_map]
  refine List.map_congr_left fun entry member => ?_
  have found := Dictionary.lookup_eq_of_mem reflects.increasing member
  simp [create, found]

/-- The ids of a registry are increasing by their bytes, and they are exactly those of the
registrations. Under each of them, and under no other one, the constructor that was registered
last makes a mode, and these are all the modes in the order of the ids. There is a warning about
settings exactly if they select no mode, and it names the mode they ask for and the ids. -/
theorem observed_of_made (made : Made registry calls) :
    registry.ids.Pairwise
        (fun first second => Text.encode first.toList < Text.encode second.toList) ∧
      (∀ id, (id ∈ registry.ids ↔ id ∈ calls.map Prod.fst) ∧
        (registry.contains id ↔ id ∈ calls.map Prod.fst) ∧
        ∀ conjunction, ((∃ mode, registry.create id conjunction = .ok mode) ↔
            id ∈ calls.map Prod.fst) ∧
          registry.create id conjunction =
            match calls.reverse.lookup id with
            | some constructor => .ok (constructor conjunction)
            | none => .error (.unknownMode id)) ∧
      (∀ conjunction, (registry.createAll conjunction).map .ok =
        registry.ids.map (registry.create · conjunction)) ∧
      ∀ settings : Settings, settings.warnings registry =
        match settings.parse.createMode registry with
        | .ok _ => []
        | .error _ => [.unknownMode settings.parse.mode registry.ids] := by
  have reflects := made.reflects
  have registered (id : String) : registry.contains id ↔ id ∈ calls.map Prod.fst := by
    rw [contains, List.contains_iff_mem, reflects.mem_ids_iff]
  refine ⟨?_, fun id => ⟨reflects.mem_ids_iff, registered id, fun conjunction => ⟨?_, ?_⟩⟩,
    reflects.map_createAll, registry.warnings_eq⟩
  · exact reflects.increasing.imp fun before => Text.encode_lt_encode before
  · rw [exists_create_iff, registered]
  · have found := reflects.lookup_eq id
    cases last : calls.reverse.lookup id <;> simp [create, found, last]

/-- One standard mode is replaced by another one, which is registered twice then. -/
theorem observed_of_made_replaced :
    let registry := (standard.register "terms" Mode.phrase).register "also" Mode.complex
    Made registry [("complex", Mode.complex), ("terms", Mode.terms), ("phrase", Mode.phrase),
        ("terms", Mode.phrase), ("also", Mode.complex)] ∧
      registry.ids = ["also", "complex", "phrase", "terms"] ∧
      registry.create "terms" .or = .ok (Mode.phrase .or) ∧
      (registry.createAll .or).map .ok = registry.ids.map (registry.create · .or) ∧
      ({ parse := { mode := "Terms" } } : Settings).warnings registry =
        [.unknownMode "Terms" ["also", "complex", "phrase", "terms"]] := by
  intro registry
  have made := (Made.standard.register "terms" Mode.phrase).register "also" Mode.complex
  have ids_eq : registry.ids = ["also", "complex", "phrase", "terms"] := by decide
  obtain ⟨_, created, all, warned⟩ := observed_of_made made
  refine ⟨made, ids_eq, ((created "terms").2.2 .or).2, all .or, ?_⟩
  rw [warned, ids_eq]
  rfl

end Registry

end SearchKeys
