import CommandDeck.Manifest.Lookup

/-!
# What a search for a command finds

The commands of several manifests stand in one order: that of the manifests, and in each its own. A target
means the first command in this order that has it as its id, and if no command has, the first that has it
as its name. So manifests that come behind others change what a target means only where it meant nothing
or where it is an id that they bring.
-/

namespace CommandDeck

theorem mem_of_findCommand? {wanted : Command → Bool} {manifests : List Manifest} {r : Resolved}
    (h : findCommand? wanted manifests = some r) :
    r.manifest ∈ manifests ∧ r.command ∈ r.manifest.commands ∧ wanted r.command = true := by
  induction manifests with
  | nil => cases h
  | cons m rest ih =>
    rw [findCommand?] at h
    split at h
    · rename_i c found
      cases h
      exact ⟨List.mem_cons_self, List.mem_of_find?_eq_some found, List.find?_some found⟩
    · obtain ⟨held, own, accepted⟩ := ih h
      exact ⟨List.mem_cons_of_mem m held, own, accepted⟩

/-- A command that is found stands in one of the manifests, and the target is its id or its name. -/
theorem mem_of_resolve? {manifests : List Manifest} {target : String} {r : Resolved}
    (h : resolve? manifests target = some r) :
    r.manifest ∈ manifests ∧ r.command ∈ r.manifest.commands ∧
      (r.command.id = target ∨ r.command.name = target) := by
  unfold resolve? at h
  split at h
  · rename_i found
    cases h
    obtain ⟨held, own, accepted⟩ := mem_of_findCommand? found
    exact ⟨held, own, Or.inl (beq_iff_eq.mp accepted)⟩
  · obtain ⟨held, own, accepted⟩ := mem_of_findCommand? h
    exact ⟨held, own, Or.inr (beq_iff_eq.mp accepted)⟩

theorem findCommand?_eq_none_iff (wanted : Command → Bool) (manifests : List Manifest) :
    findCommand? wanted manifests = none ↔
      ∀ m ∈ manifests, ∀ c ∈ m.commands, wanted c = false := by
  induction manifests with
  | nil => simp [findCommand?]
  | cons m rest ih =>
    rw [List.forall_mem_cons, ← ih, findCommand?]
    cases found : m.commands.find? wanted with
    | none =>
      have refused : ∀ c ∈ m.commands, wanted c = false := by
        simpa using List.find?_eq_none.mp found
      exact ⟨fun none => ⟨refused, none⟩, fun h => h.2⟩
    | some c =>
      refine iff_of_false (by simp) fun h => ?_
      have refused := h.1 c (List.mem_of_find?_eq_some found)
      rw [List.find?_some found] at refused
      cases refused

/-- A target means nothing exactly when it is neither the id nor the name of a command. -/
theorem resolve?_eq_none_iff (manifests : List Manifest) (target : String) :
    resolve? manifests target = none ↔
      ∀ m ∈ manifests, ∀ c ∈ m.commands, c.id ≠ target ∧ c.name ≠ target := by
  have byId := findCommand?_eq_none_iff (fun c => c.id == target) manifests
  have byName := findCommand?_eq_none_iff (fun c => c.name == target) manifests
  simp only [beq_eq_false_iff_ne] at byId byName
  have both : resolve? manifests target = none ↔
      findCommand? (fun c => c.id == target) manifests = none ∧
        findCommand? (fun c => c.name == target) manifests = none := by
    unfold resolve?
    cases findCommand? (fun c => c.id == target) manifests <;> simp
  rw [both, byId, byName]
  constructor
  · rintro ⟨ids, names⟩ m hm c hc
    exact ⟨ids m hm c hc, names m hm c hc⟩
  · intro none
    exact ⟨fun m hm c hc => (none m hm c hc).1, fun m hm c hc => (none m hm c hc).2⟩

/-- A command whose id no other command of the manifests has is the one that its id names. -/
theorem resolve?_of_unique_id {manifests : List Manifest} {m : Manifest} {c : Command}
    (hm : m ∈ manifests) (hc : c ∈ m.commands)
    (unique : ∀ k ∈ manifests, ∀ d ∈ k.commands, d.id = c.id → k = m ∧ d = c) :
    resolve? manifests c.id = some ⟨m, c⟩ := by
  unfold resolve?
  cases found : findCommand? (fun d => d.id == c.id) manifests with
  | none =>
    have refused := (findCommand?_eq_none_iff _ manifests).mp found m hm c hc
    simp at refused
  | some r =>
    obtain ⟨held, own, accepted⟩ := mem_of_findCommand? found
    obtain ⟨k, d⟩ := r
    obtain ⟨rfl, rfl⟩ := unique k held d own (beq_iff_eq.mp accepted)
    rfl

/-! ### The order of the commands -/

/-- The commands of manifests, each with the manifest that holds it. -/
def listed (manifests : List Manifest) : List Resolved :=
  manifests.flatMap fun m => m.commands.map fun c => ⟨m, c⟩

/-- Before this command of a list no other has the property. -/
def IsFirst (P : Command → Prop) (l : List Resolved) (r : Resolved) : Prop :=
  ∃ before after, l = before ++ r :: after ∧ P r.command ∧ ∀ x ∈ before, ¬ P x.command

theorem mem_listed {manifests : List Manifest} {r : Resolved} :
    r ∈ listed manifests ↔ r.manifest ∈ manifests ∧ r.command ∈ r.manifest.commands := by
  simp only [listed, List.mem_flatMap, List.mem_map]
  constructor
  · rintro ⟨m, hm, c, hc, rfl⟩
    exact ⟨hm, hc⟩
  · rintro ⟨held, own⟩
    exact ⟨r.manifest, held, r.command, own, rfl⟩

theorem forall_mem_listed {manifests : List Manifest} {P : Command → Prop} :
    (∀ x ∈ listed manifests, P x.command) ↔ ∀ m ∈ manifests, ∀ c ∈ m.commands, P c := by
  constructor
  · intro h m hm c hc
    exact h ⟨m, c⟩ (mem_listed.mpr ⟨hm, hc⟩)
  · intro h x hx
    obtain ⟨held, own⟩ := mem_listed.mp hx
    exact h x.manifest held x.command own

/-- The search goes through the commands in their order. -/
theorem findCommand?_eq_find? (wanted : Command → Bool) (manifests : List Manifest) :
    findCommand? wanted manifests = (listed manifests).find? fun x => wanted x.command := by
  induction manifests with
  | nil => rfl
  | cons m rest ih =>
    have own : (m.commands.map fun c => (⟨m, c⟩ : Resolved)).find? (fun x => wanted x.command) =
        (m.commands.find? wanted).map fun c => ⟨m, c⟩ :=
      List.find?_map
    rw [findCommand?, ih]
    simp only [listed, List.flatMap_cons, List.find?_append, own]
    cases m.commands.find? wanted with
    | none => rfl
    | some c => rfl

theorem findCommand?_eq_some_iff {wanted : Command → Bool} {manifests : List Manifest}
    {r : Resolved} :
    findCommand? wanted manifests = some r ↔
      IsFirst (fun c => wanted c = true) (listed manifests) r := by
  simp only [findCommand?_eq_find?, List.find?_eq_some_iff_append, IsFirst, Bool.not_eq_true',
    Bool.not_eq_true]
  constructor
  · rintro ⟨accepted, before, after, parts, refused⟩
    exact ⟨before, after, parts, accepted, refused⟩
  · rintro ⟨before, after, parts, accepted, refused⟩
    exact ⟨accepted, before, after, parts, refused⟩

theorem findCommand?_append (wanted : Command → Bool) (manifests more : List Manifest) :
    findCommand? wanted (manifests ++ more) =
      (findCommand? wanted manifests).or (findCommand? wanted more) := by
  simp only [findCommand?_eq_find?, listed, List.flatMap_append, List.find?_append]

theorem resolve?_eq_or (manifests : List Manifest) (target : String) :
    resolve? manifests target =
      (findCommand? (fun c => c.id == target) manifests).or
        (findCommand? (fun c => c.name == target) manifests) := by
  rw [resolve?]
  cases findCommand? (fun c => c.id == target) manifests with
  | none => rfl
  | some r => rfl

theorem resolve?_eq_some_iff {manifests : List Manifest} {target : String} {r : Resolved} :
    resolve? manifests target = some r ↔
      IsFirst (·.id = target) (listed manifests) r ∨
        (∀ x ∈ listed manifests, x.command.id ≠ target) ∧
          IsFirst (·.name = target) (listed manifests) r := by
  rw [resolve?_eq_or, Option.or_eq_some_iff, findCommand?_eq_some_iff, findCommand?_eq_some_iff,
    findCommand?_eq_none_iff, ← forall_mem_listed]
  simp only [beq_iff_eq, beq_eq_false_iff_ne]

/-- Further manifests change what a target means only by an id, or where it meant nothing. -/
theorem resolve?_append_of_ne {manifests more : List Manifest} {target : String}
    (changed : resolve? (manifests ++ more) target ≠ resolve? manifests target) :
    resolve? manifests target = none ∨
      (∃ x ∈ listed more, x.command.id = target) ∧
        ∀ x ∈ listed manifests, x.command.id ≠ target := by
  have grows := findCommand?_append (fun c => c.id == target) manifests more
  have named := findCommand?_append (fun c => c.name == target) manifests more
  rw [resolve?_eq_or, resolve?_eq_or, grows, named] at changed
  cases byId : findCommand? (fun c => c.id == target) manifests with
  | some r => exact absurd (by rw [byId]; rfl) changed
  | none =>
    have unknown : ∀ x ∈ listed manifests, x.command.id ≠ target := by
      have refused := forall_mem_listed.mpr ((findCommand?_eq_none_iff _ manifests).mp byId)
      simpa only [beq_eq_false_iff_ne] using refused
    cases added : findCommand? (fun c => c.id == target) more with
    | some r =>
      obtain ⟨held, own, accepted⟩ := mem_of_findCommand? added
      exact Or.inr ⟨⟨r, mem_listed.mpr ⟨held, own⟩, beq_iff_eq.mp accepted⟩, unknown⟩
    | none =>
      -- neither list has the id, so the first name decides on both sides
      refine Or.inl ?_
      rw [resolve?_eq_or, byId, Option.none_or]
      rw [byId, added, Option.none_or, Option.none_or] at changed
      cases byName : findCommand? (fun c => c.name == target) manifests with
      | none => rfl
      | some r => exact absurd (by rw [byName]; rfl) changed

/-- A target means the first command with this id, or if there is none the first with this name, and comes
with the manifest that holds it; it means nothing exactly when it is neither the id nor the name of a
command. Manifests that are appended change what it means only where it meant nothing before, or where
they bring it as an id that no earlier command has. -/
theorem target_means_first (manifests : List Manifest) (target : String) :
    (∀ r, resolve? manifests target = some r ↔
      IsFirst (·.id = target) (listed manifests) r ∨
        (∀ x ∈ listed manifests, x.command.id ≠ target) ∧
          IsFirst (·.name = target) (listed manifests) r) ∧
    (resolve? manifests target = none ↔
      ∀ m ∈ manifests, ∀ c ∈ m.commands, c.id ≠ target ∧ c.name ≠ target) ∧
    (∀ r, resolve? manifests target = some r →
      r.manifest ∈ manifests ∧ r.command ∈ r.manifest.commands) ∧
    ∀ more, resolve? (manifests ++ more) target ≠ resolve? manifests target →
      resolve? manifests target = none ∨
        (∃ m ∈ more, ∃ c ∈ m.commands, c.id = target) ∧
          ∀ m ∈ manifests, ∀ c ∈ m.commands, c.id ≠ target := by
  refine ⟨fun r => resolve?_eq_some_iff, resolve?_eq_none_iff manifests target, ?_, ?_⟩
  · intro r found
    obtain ⟨held, own, -⟩ := mem_of_resolve? found
    exact ⟨held, own⟩
  · intro more changed
    refine (resolve?_append_of_ne changed).imp id fun h => ?_
    obtain ⟨⟨x, hx, same⟩, unknown⟩ := h
    obtain ⟨held, own⟩ := mem_listed.mp hx
    exact ⟨⟨x.manifest, held, x.command, own, same⟩, forall_mem_listed.mp unknown⟩

/-- The name of a command is the id of one that comes later, and the id wins. -/
theorem id_beats_earlier_name :
    let demo := Manifest.demo "0"
    let renamed : List Command := demo.commands.map fun c =>
      { c with name := "billing-service:invoice-generate", id := "payments:alias" }
    let payments : Manifest := { demo with namespaceName := "payments", commands := renamed }
    let target := "billing-service:invoice-generate"
    resolve? [payments] target = renamed.head?.map (⟨payments, ·⟩) ∧
      resolve? [payments, demo] target = demo.commands.head?.map (⟨demo, ·⟩) ∧
      ∀ m ∈ [payments], ∀ c ∈ m.commands, c.id ≠ target := by
  intro demo renamed payments target
  have byName : resolve? [payments] target = renamed.head?.map (⟨payments, ·⟩) := rfl
  have byId : resolve? [payments, demo] target = demo.commands.head?.map (⟨demo, ·⟩) := rfl
  have changed : resolve? ([payments] ++ [demo]) target ≠ resolve? [payments] target := by
    rw [List.singleton_append, byId, byName]
    intro same
    have commands := congrArg (Option.map fun r => r.command.id) same
    revert commands
    decide
  have outcome := (target_means_first [payments] target).2.2.2 [demo] changed
  rw [byName] at outcome
  exact ⟨byName, byId, (outcome.resolve_left (by simp [renamed, demo, Manifest.demo])).2⟩

end CommandDeck
