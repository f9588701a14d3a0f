import CommandDeck.Proofs.Terminal.Outcome

/-!
# The flags that are missing

Whether a flag is missing depends on which words there are, not on their order or number. Going through
the arguments, `Lacks` says what each of them adds to the flags that are missing: a required argument that
no word gives adds its flag, and every other argument adds nothing. More words never add a flag, and one
more word takes away just the flags that it begins with.
-/

namespace CommandDeck

namespace Argument

variable {a : Argument} {words more : List String}

theorem IsGiven.mono (h : a.IsGiven words) (sub : words ⊆ more) : a.IsGiven more := by
  obtain ⟨w, mem, begins⟩ := h
  exact ⟨w, sub mem, begins⟩

theorem isGiven_insert (before after : List String) (w : String) :
    a.IsGiven (before ++ w :: after) ↔
      a.cli.toList <+: w.toList ∨ a.IsGiven (before ++ after) := by
  constructor
  · rintro ⟨v, mem, begins⟩
    rcases List.mem_cons.mp (List.perm_middle.mem_iff.mp mem) with rfl | mem
    · exact .inl begins
    · exact .inr ⟨v, mem, begins⟩
  · rintro (begins | given)
    · exact ⟨w, List.mem_append_cons_self, begins⟩
    · exact given.mono fun _ mem => List.perm_middle.mem_iff.mpr (List.mem_cons_of_mem w mem)

end Argument

/-- Of these arguments the flags in the second list are missing from the words, in their order. -/
inductive Lacks (words : List String) : List Argument → List String → Prop where
  | nil : Lacks words [] []
  | optional {a : Argument} {as : List Argument} {flags : List String} (free : a.required = false)
      (others : Lacks words as flags) : Lacks words (a :: as) flags
  | given {a : Argument} {as : List Argument} {flags : List String} (given : a.IsGiven words)
      (others : Lacks words as flags) : Lacks words (a :: as) flags
  | missing {a : Argument} {as : List Argument} {flags : List String} (required : a.required = true)
      (absent : ¬ a.IsGiven words) (others : Lacks words as flags) :
      Lacks words (a :: as) (a.cli :: flags)

theorem lacks_iff {words : List String} {as : List Argument} {flags : List String} :
    Lacks words as flags ↔
      flags = (as.filter fun a => a.required = true ∧ ¬ a.IsGiven words).map (·.cli) := by
  constructor
  · intro h
    induction h with
    | nil => rfl
    | optional free _ ih => rw [List.filter_cons_of_neg (by simp [free]), ih]
    | given given _ ih => rw [List.filter_cons_of_neg (by simp [given]), ih]
    | missing required absent _ ih =>
      rw [List.filter_cons_of_pos (by simp [required, absent]), List.map_cons, ih]
  · rintro rfl
    induction as with
    | nil => exact .nil
    | cons a as ih =>
      by_cases required : a.required = true
      · by_cases given : a.IsGiven words
        · rw [List.filter_cons_of_neg (by simp [given])]
          exact .given given ih
        · rw [List.filter_cons_of_pos (by simp [required, given])]
          exact .missing required given ih
      · rw [List.filter_cons_of_neg (by simp [required])]
        exact .optional (Bool.eq_false_of_not_eq_true required) ih

namespace Command

variable (c : Command)

theorem missingFlags_sublist {words more : List String} (sub : words ⊆ more) :
    (c.missingFlags more).Sublist (c.missingFlags words) := by
  rw [missingFlags_eq, missingFlags_eq]
  refine (List.monotone_filter_right _ fun a lacks => ?_).map _
  obtain ⟨required, absent⟩ := of_decide_eq_true lacks
  exact decide_eq_true ⟨required, fun given => absent (given.mono sub)⟩

theorem missingFlags_congr {words more : List String} (same : ∀ w, w ∈ words ↔ w ∈ more) :
    c.missingFlags words = c.missingFlags more :=
  (c.missingFlags_sublist fun _ mem => (same _).mpr mem).antisymm
    (c.missingFlags_sublist fun _ mem => (same _).mp mem)

/-- One more word takes away the flags that it begins with, wherever it stands. -/
theorem missingFlags_insert (before after : List String) (w : String) :
    c.missingFlags (before ++ w :: after) =
      (c.missingFlags (before ++ after)).filter fun flag => ¬ flag.toList <+: w.toList := by
  rw [missingFlags_eq, missingFlags_eq, flagsNotGiven, flagsNotGiven, List.filter_map,
    List.filter_filter]
  congr 1
  refine List.filter_congr fun a _ => ?_
  rw [Bool.eq_iff_iff]
  simp [a.isGiven_insert before after w, not_or, and_left_comm]

theorem not_mem_missingFlags_insert (before after : List String) (flag rest : String) :
    flag ∉ c.missingFlags (before ++ (flag ++ rest) :: after) := by
  rw [missingFlags_insert]
  intro mem
  have kept := of_decide_eq_true (List.mem_filter.mp mem).2
  exact kept (by rw [String.toList_append]; exact List.prefix_append _ _)

/-- More words leave no more flags missing, and words that are the same in any order and number leave the
same ones. These are the flags that the arguments add one by one, and the command is invoked with the
words as they are unless there are such flags, which are then the answer. One more word takes away the
flags that it begins with, so that no flag is missing which a word goes on from. -/
theorem missing_flags_by_occurrence (c : Command) (words : List String) :
    (∀ more, words ⊆ more → (c.missingFlags more).Sublist (c.missingFlags words)) ∧
    (∀ others, (∀ w, w ∈ words ↔ w ∈ others) → c.missingFlags others = c.missingFlags words) ∧
    (∀ flags, Lacks words c.arguments flags ↔ flags = c.missingFlags words) ∧
    (∀ namespaceName, c.invoke namespaceName words =
      if c.missingFlags words = [] then .ok ⟨namespaceName, c, words⟩
      else .error (c.missingFlags words)) ∧
    ∀ before after, words = before ++ after →
      (∀ w, c.missingFlags (before ++ w :: after) =
        (c.missingFlags words).filter fun flag => ¬ flag.toList <+: w.toList) ∧
      ∀ a ∈ c.arguments, a.required = true → ∀ rest,
        a.cli ∉ c.missingFlags (before ++ (a.cli ++ rest) :: after) := by
  refine ⟨?_, ?_, ?_, ?_, ?_⟩
  · exact fun more sub => c.missingFlags_sublist sub
  · exact fun others same => (c.missingFlags_congr same).symm
  · intro flags
    rw [lacks_iff, missingFlags_eq]
    rfl
  · intro namespaceName
    rw [Terminal.invoke_eq, ← missingFlags_eq]
  · rintro before after rfl
    exact ⟨c.missingFlags_insert before after,
      fun a _ _ rest => c.not_mem_missingFlags_insert before after a.cli rest⟩

/-- Flags that are the beginnings of others, one of them twice, and an optional one. A longer word gives
the shorter flags and not the longest. -/
theorem overlapping_flags_by_occurrence :
    let argument (cli : String) (required : Bool) : Argument :=
      { Argument.fresh with cli := cli, required := required }
    let c : Command := { Terminal.fetch "ops:tar" with
      arguments := [argument "--out" true, argument "-a" false, argument "--output" true,
        argument "--out" true, argument "" true] }
    c.missingFlags ["--outer"] = ["--output"] ∧
    Lacks ["--outer"] c.arguments ["--output"] ∧
    c.missingFlags ["--outer", "x", "--outer"] = c.missingFlags ["x", "--outer"] ∧
    (c.missingFlags ["x", "--outer"]).Sublist (c.missingFlags ["--outer"]) ∧
    "--output" ∉ c.missingFlags ["--outer", "--output=1", "x"] := by
  intro argument c
  have missing : c.missingFlags ["--outer"] = ["--output"] := by decide
  obtain ⟨more, -, lacks, -, -⟩ := c.missing_flags_by_occurrence ["--outer"]
  obtain ⟨-, same, -, -, -⟩ := c.missing_flags_by_occurrence ["x", "--outer"]
  obtain ⟨-, -, -, -, longer⟩ := c.missing_flags_by_occurrence ["--outer", "x"]
  refine ⟨missing, (lacks _).mpr missing.symm, same _ (by simp [or_comm]), more _ (by simp), ?_⟩
  exact (longer ["--outer"] ["x"] rfl).2 (argument "--output" true) (by simp [c]) rfl "=1"

end Command

end CommandDeck
