import CommandDeck.Proofs.Json.Decoding

/-!
# Enumerations of trees

The name of an enumeration is written as a string, or as the only key of an object whose value is `null`.
The reader of both forms reads trees.
-/

namespace CommandDeck.Json

section Names

variable {α : Type}

/-- The value with this name. -/
def nameOf (known : List (String × α)) (name : String) : Except ReadError α :=
  match known.find? fun k => k.1 == name with
  | some k => .ok k.2
  | none => .error (.unknownVariant name (known.map (·.1)))

def nullKinds : Kinds Unit := ⟨some (), fun _ => none, fun _ => none, fun _ => none⟩

/-- The word `null`. -/
def null : Reader Unit := fun _ =>
  atValue fun c rest =>
    if c = 'n' then (readNullTail rest).map fun s => ((), s) else wrongKind "unit" c rest

theorem readBy_null : nullKinds.ReadBy null := by
  refine .of fun _ => ⟨_, rfl, fun c rest => ?_⟩
  unfold Kinds.readAt
  by_cases word : c = 'n'
  · subst word
    rw [if_pos rfl]
    cases readNullTail rest <;> rfl
  · rw [if_neg word, toOption_wrongKind]
    split <;> simp_all [nullKinds]

/-- The brace after the only member. -/
def endBrace (a : α) (s : List Char) : Except ReadError (α × List Char) :=
  match skipSpace s with
  | [] => .error (.unfinished .object)
  | '\x7d' :: rest => .ok (a, rest)
  | _ => .error .expectedValue

/-- Reads a name as the only key of an object, from after the brace. -/
def onlyKey (known : List (String × α)) (s : List Char) : Except ReadError (α × List Char) :=
  match skipSpace s with
  | [] => .error (.unfinished .object)
  | '\x7d' :: _ => .error .expectedValue
  | '"' :: rest =>
    (readString rest).bind fun r => (nameOf known r.1).bind fun a =>
      ((colon r.2).bind (null 0)).bind fun r => endBrace a r.2
  | _ => .error .keyNotString

theorem endBrace_members (a : α) {members : List (Quoted × Tree)} {s rest : List Char}
    (h : Spells (memberTokens false members ++ [['\x7d']]) s rest) :
    (endBrace a s).toOption =
      (if members.isEmpty then some a else none).map fun a => (a, rest) := by
  cases members with
  | nil =>
    simp only [endBrace, (spells_singleton (by rfl)).mp h]
    rfl
  | cons m members =>
    obtain ⟨s', separator, -⟩ := (spells_cons (by rfl)).mp h
    simp only [endBrace, separator]
    rfl

theorem endBrace_ok {a b : α} {s rest : List Char} (h : endBrace a s = .ok (b, rest)) :
    skipSpace s = '\x7d' :: rest := by
  unfold endBrace at h
  split at h <;> cases h
  assumption

variable (known : List (String × α)) (levels : Nat) {s rest : List Char}

theorem variant_quote (found : skipSpace s = '"' :: rest) :
    variant known levels s =
      (readString rest).bind fun r => (nameOf known r.1).map fun a => (a, r.2) := by
  simp only [variant, found]
  cases readString rest <;> rfl

theorem variant_brace (found : skipSpace s = '\x7b' :: rest) :
    variant known levels s = oneLevelDown (fun _ => onlyKey known) levels rest := by
  simp only [variant, found]
  congr 1
  funext _ s
  rw [onlyKey]
  cases skipSpace s with
  | nil => rfl
  | cons c rest =>
    by_cases closing : c = '\x7d'
    · subst closing
      rfl
    by_cases quote : c = '"'
    · subst quote
      simp only [nameOf, null, endBrace]
      rcases readString rest with _ | ⟨name, rest⟩
      · rfl
      simp only [Except.bind]
      cases known.find? fun k => k.1 == name with
      | none => rfl
      | some k =>
        dsimp only
        cases colon rest with
        | error e => rfl
        | ok s =>
          dsimp only
          generalize atValue _ s = r
          cases r <;> rfl
    · simp [closing, quote]

/-- An enumeration is read from a string or an object. -/
theorem variant_ok {a : α} {rest : List Char} (h : variant known levels s = .ok (a, rest)) :
    ∃ s', skipSpace s = '"' :: s' ∨ skipSpace s = '\x7b' :: s' := by
  unfold variant at h
  dsimp only at h
  split at h
  · cases h
  · exact ⟨_, .inl (by assumption)⟩
  · exact ⟨_, .inr (by assumption)⟩
  · cases h

/-- What is made of the name in an enumeration, which may also be the only key of an object. -/
def variantValue : Tree → Option α
  | .scalar (.string q) => q.content?.bind fun name => (nameOf known name).toOption
  | .object ((q, value) :: members) =>
    q.content?.bind fun name => (nameOf known name).toOption.bind fun a =>
      (nullKinds.value value).bind fun _ => if members.isEmpty then some a else none
  | _ => none

theorem denotes_variant : Denotes 1 (variant known) (variantValue known) := by
  intro levels enough t s rest spelled ends
  obtain ⟨levels, rfl⟩ : ∃ k, levels = k + 1 := ⟨levels - 1, by omega⟩
  have other : (∀ q, t ≠ .scalar (.string q)) → (∀ members, t ≠ .object members) →
      (variant known (levels + 1) s).toOption = none := by
    intro noString noObject
    obtain ⟨c, s', found, begins, -⟩ := Spells.begin spelled
    cases done : variant known (levels + 1) s with
    | error e => rfl
    | ok r =>
      obtain ⟨_, quote | brace⟩ := variant_ok known _ done
      · rw [found] at quote
        exact ((begins.quote (List.cons.inj quote).1).elim noString).elim
      · rw [found] at brace
        exact ((begins.brace (List.cons.inj brace).1).elim noObject).elim
  match t with
  | .scalar (.string q) =>
    obtain ⟨s', quote, read⟩ := readString_quoted q (spells_scalar.mp spelled) ends
    rw [variant_quote known _ quote, toOption_bind, read, variantValue]
    cases q.content? with
    | none => rfl
    | some name => simp
  | .scalar .null => exact other (fun _ => nofun) (fun _ => nofun)
  | .scalar (.boolean b) => exact other (fun _ => nofun) (fun _ => nofun)
  | .scalar (.number negative u) => exact other (fun _ => nofun) (fun _ => nofun)
  | .array items => exact other (fun _ => nofun) (fun _ => nofun)
  | .object [] =>
    obtain ⟨s', brace, inner⟩ := spells_object.mp spelled
    have closing := (spells_singleton (by rfl)).mp inner
    rw [variant_brace known _ brace, oneLevelDown]
    simp only [onlyKey, closing]
    rfl
  | .object ((q, value) :: members) =>
    obtain ⟨s', brace, inner⟩ := spells_object.mp spelled
    obtain ⟨s₁, quote, more⟩ := spells_quoted.mp inner
    obtain ⟨s₂, mark, more⟩ := spells_append.mp
      (show Spells ([[':']] ++ (value.tokens ++ (memberTokens false members ++ [['\x7d']]))) s₁ rest by
        simpa using more)
    obtain ⟨m, one, later⟩ := spells_append.mp more
    have read := readString_body q.body (mark.ends (by decide))
    have word := readBy_null.denotes (Nat.zero_le 0) one (ends_members later)
    rw [variant_brace known _ brace, oneLevelDown]
    simp only [onlyKey, quote, toOption_bind, read, variantValue, Quoted.content?]
    cases unescaped q.raw with
    | none => rfl
    | some name =>
      simp only [Option.map_some, Option.bind_some]
      cases nameOf known name with
      | error e => rfl
      | ok a =>
        simp only [toOption_ok, Option.bind_some, colon_mark ((spells_singleton (by rfl)).mp mark),
          word]
        cases nullKinds.value value with
        | none => rfl
        | some _ => exact endBrace_members a later

theorem readsTrees_variant : ReadsTrees 1 (variant known) := by
  refine .of (by decide) (denotes_variant known) fun {levels s rest a} done => ?_
  obtain ⟨s', quote | brace⟩ := variant_ok known levels done
  · rw [variant_quote known levels quote] at done
    obtain ⟨⟨name, m⟩, read, done⟩ := bind_eq_ok.mp done
    obtain ⟨a, -, same⟩ := map_eq_ok.mp done
    cases same
    obtain ⟨q, spelled⟩ := exists_string quote (readString_ok read)
    exact ⟨_, spelled⟩
  · rw [variant_brace known levels brace] at done
    obtain ⟨levels, -, done⟩ := oneLevelDown_ok done
    unfold onlyKey at done
    split at done
    · cases done
    · cases done
    · rename_i s₁ quote
      obtain ⟨⟨name, s₂⟩, read, done⟩ := bind_eq_ok.mp done
      obtain ⟨a, -, done⟩ := bind_eq_ok.mp done
      obtain ⟨⟨_, m⟩, word, closed⟩ := bind_eq_ok.mp done
      obtain ⟨s₃, mark, word⟩ := bind_eq_ok.mp word
      obtain ⟨raw, rfl, body⟩ := readString_ok read
      obtain ⟨value, one⟩ := readBy_null.sound word
      have mark := (spells_singleton (by rfl)).mpr (colon_ok mark)
      have closing := (spells_singleton (by rfl)).mpr (endBrace_ok closed)
      have inner : Spells (memberTokens true [(⟨raw, body⟩, value)] ++ [['\x7d']]) s' rest := by
        have all := spells_append.mpr ⟨s₃, mark, spells_append.mpr ⟨m, one, closing⟩⟩
        have key := spells_quoted (q := ⟨raw, body⟩).mpr ⟨s₂, quote, all⟩
        simpa [memberTokens, comma] using key
      exact ⟨_, spells_object.mpr ⟨s', brace, inner⟩⟩
    · cases done

end Names

end CommandDeck.Json
