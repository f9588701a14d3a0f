import CommandDeck.Proofs.Json.ListTree
import CommandDeck.Proofs.Json.Record

/-!
# Records of trees

The reader of a record reads trees when the readers of its members do. What it makes of an object is
the fold of its members, each put in or passed over in turn, and what it makes of an array comes from
putting in its items place by place.
-/

namespace CommandDeck.Json

/-! ### Objects -/

section Objects

variable {σ : Type} {step : σ → String → Reader σ} {levels : Nat}

theorem nextKey?_closing (first : Bool) {s rest : List Char} (found : skipSpace s = '\x7d' :: rest) :
    nextKey? first s = .ok none := by
  simp only [nextKey?, found, if_true]

theorem nextKey?_spelled {first : Bool} {q : Quoted} {tokens : List (List Char)} {s rest : List Char}
    (h : Spells (comma first ++ q.text :: tokens) s rest) :
    ∃ s', nextKey? first s = .ok (some (q.raw ++ '"' :: s')) ∧ s'.length < s.length ∧
      Spells tokens s' rest := by
  cases first with
  | true =>
    obtain ⟨s', quote, more⟩ := spells_quoted.mp h
    have shorter := skipSpace_shorter quote
    rw [List.length_append, List.length_cons] at shorter
    refine ⟨s', ?_, by omega, more⟩
    simp only [nextKey?, quote]
    rfl
  | false =>
    obtain ⟨s₁, separator, key⟩ := (spells_cons (by rfl)).mp h
    obtain ⟨s', quote, more⟩ := spells_quoted.mp key
    have shorter := skipSpace_shorter separator
    have shorter' := skipSpace_shorter quote
    rw [List.length_append] at shorter'
    rw [List.length_append] at shorter
    simp only [List.length_cons, List.length_nil] at shorter shorter'
    refine ⟨s', ?_, by omega, more⟩
    simp only [nextKey?, separator, List.nil_append, quote]
    rfl

theorem membersFrom_next {first : Bool} {s s' : List Char}
    (next : nextKey? first s = .ok (some s')) (d : Char) (budget : List Char) (p : σ) :
    membersFrom step levels (d :: budget) first p s =
      (readString s').bind fun r => (step p r.1 levels r.2).bind fun r =>
        membersFrom step levels budget false r.1 r.2 := by
  simp only [membersFrom, next]
  rcases readString s' with _ | ⟨key, s'⟩
  · rfl
  · simp only [Except.bind]
    rcases step p key levels s' with _ | ⟨q, s'⟩ <;> rfl

/-- What a member makes of the state: its key has to name something. -/
def putKeyed (put : σ → String → Tree → Option σ) (p : σ) (m : Quoted × Tree) : Option σ :=
  m.1.content?.bind fun key => put p key m.2

/-- When each step makes `put` of a value, the members up to the brace are folded. -/
theorem membersFrom_spelled {put : σ → String → Tree → Option σ}
    (each : ∀ p key {t : Tree} {s rest : List Char}, Spells ([':'] :: t.tokens) s rest → Ends rest →
      (step p key levels s).toOption = (put p key t).map fun q => (q, rest))
    {members : List (Quoted × Tree)} {first : Bool} {p : σ} {s rest budget : List Char}
    (spelled : Spells (memberTokens first members ++ [['\x7d']]) s rest)
    (room : s.length ≤ budget.length) :
    (membersFrom step levels budget first p s).toOption =
      (members.foldlM (putKeyed put) p).map fun q => (q, rest) := by
  -- Each member takes a character from the text at least, so that the budget lasts.
  induction members generalizing first p s budget with
  | nil =>
    have closing := (spells_singleton (by rfl)).mp spelled
    obtain ⟨d, budget, rfl, -⟩ := exists_budget (skipSpace_shorter closing) room
    simp only [membersFrom, nextKey?_closing first closing, closing]
    rfl
  | cons m members ih =>
    obtain ⟨q, value⟩ := m
    obtain ⟨m, member, later⟩ := spells_append.mp
      (show Spells ((comma first ++ q.text :: [':'] :: value.tokens) ++
        (memberTokens false members ++ [['\x7d']])) s rest by simpa [memberTokens] using spelled)
    obtain ⟨s', next, shorter, valued⟩ := nextKey?_spelled member
    have le := valued.length_le
    have read := readString_body q.body (valued.ends (by decide))
    obtain ⟨d, budget, rfl, room⟩ := exists_budget shorter room
    rw [membersFrom_next next, toOption_bind, read, List.foldlM_cons, putKeyed, Quoted.content?]
    cases unescaped q.raw with
    | none => rfl
    | some key =>
      simp only [Option.map_some, Option.bind_some, toOption_bind,
        each p key valued (ends_members later)]
      cases put p key value with
      | none => rfl
      | some p' => exact ih later (show m.length ≤ budget.length by omega)

theorem nextKey?_ok_none {first : Bool} {s : List Char} (h : nextKey? first s = .ok none) :
    ∃ rest, skipSpace s = '\x7d' :: rest := by
  unfold nextKey? at h
  split at h
  · cases h
  rename_i c rest found
  split at h
  · rename_i closing
    exact ⟨rest, closing ▸ found⟩
  split at h
  · split at h <;> cases h
  split at h
  · split at h <;> cases h
  · cases h

theorem nextKey?_ok_some {first : Bool} {q : Quoted} {tokens : List (List Char)}
    {s s' rest : List Char} (h : nextKey? first s = .ok (some (q.raw ++ '"' :: s')))
    (more : Spells tokens s' rest) : Spells (comma first ++ q.text :: tokens) s rest := by
  unfold nextKey? at h
  split at h
  · cases h
  rename_i c rest found
  split at h
  · cases h
  split at h
  · rename_i first
    subst first
    split at h <;> cases h
    rename_i quote
    subst quote
    exact spells_quoted.mpr ⟨s', found, more⟩
  · rename_i first
    rw [Bool.not_eq_true] at first
    subst first
    split at h
    · rename_i separator
      subst separator
      split at h <;> cases h
      rename_i quote
      exact (spells_cons (by rfl)).mpr ⟨rest, found, spells_quoted.mpr ⟨s', quote, more⟩⟩
    · cases h

/-- When each step has read a value, an object has been read. -/
theorem membersFrom_ok
    (each : ∀ {p q : σ} {key : String} {s rest : List Char}, step p key levels s = .ok (q, rest) →
      ∃ t : Tree, Spells ([':'] :: t.tokens) s rest)
    {budget : List Char} {first : Bool} {p q : σ} {s rest : List Char}
    (h : membersFrom step levels budget first p s = .ok (q, rest)) :
    ∃ members, Spells (memberTokens first members ++ [['\x7d']]) s rest := by
  induction budget generalizing first p s with
  | nil => cases h
  | cons d budget ih =>
    cases next : nextKey? first s with
    | error e =>
      simp only [membersFrom, next] at h
      cases h
    | ok key? =>
      cases key? with
      | none =>
        obtain ⟨tail, found⟩ := nextKey?_ok_none next
        simp only [membersFrom, next, found] at h
        cases h
        exact ⟨[], (spells_singleton (by rfl)).mpr found⟩
      | some s' =>
        rw [membersFrom_next next] at h
        obtain ⟨⟨key, s₁⟩, read, member⟩ := bind_eq_ok.mp h
        obtain ⟨⟨p', m⟩, one, more⟩ := bind_eq_ok.mp member
        obtain ⟨raw, rfl, body⟩ := readString_ok read
        obtain ⟨t, valued⟩ := each one
        obtain ⟨members, others⟩ := ih more
        refine ⟨(⟨raw, body⟩, t) :: members, ?_⟩
        have member := nextKey?_ok_some (q := ⟨raw, body⟩) next valued
        simpa [memberTokens] using spells_append.mpr ⟨m, member, others⟩

end Objects

namespace RecordLayout

variable {σ : Type} (layout : RecordLayout σ)

/-- What a member makes of the record under construction. -/
def putValue (p : Progress σ) (key : String) (value : Tree) : Option (Progress σ) :=
  match layout.members.find? fun m => m.name == key with
  | none => some p
  | some m =>
    if p.seen.contains key then none
    else (decode m.put value).map fun change => ⟨change p.record, key :: p.seen⟩

/-- What is made of an object with these members. -/
def ofMembers (members : List (Quoted × Tree)) : Option σ :=
  (members.foldlM (putKeyed layout.putValue) ⟨layout.blank, []⟩).bind fun p =>
    if (layout.missing? p.seen).isNone then some p.record else none

/-- What is made of an array with these items: they are put in place by place, and the places at the end
that may be left out need none. -/
def placed : List (Member σ) → List Tree → σ → Option σ
  | [], [], record => some record
  | [], _ :: _, _ => none
  | m :: left, [], record => if m.presence = .defaulted then placed left [] record else none
  | m :: left, t :: items, record =>
    (decode m.put t).bind fun change => placed left items (change record)

variable {layout} {n levels : Nat}

theorem putMember_spelled (each : ∀ m ∈ layout.members, ReadsTrees n m.put) (enough : n ≤ levels)
    (p : Progress σ) (key : String) {t : Tree} {s rest : List Char}
    (spelled : Spells ([':'] :: t.tokens) s rest) (ends : Ends rest) :
    (layout.putMember p key levels s).toOption =
      (layout.putValue p key t).map fun q => (q, rest) := by
  obtain ⟨s', mark, value⟩ := (spells_cons (by rfl)).mp spelled
  have mark := colon_mark mark
  rw [putMember, putValue]
  cases found : layout.members.find? fun m => m.name == key with
  | none =>
    simp only [mark, List.nil_append, skipValue_tree value ends]
    rfl
  | some m =>
    dsimp only
    split
    · rfl
    · have one := (each m (List.mem_of_find?_eq_some found)).denotes enough value ends
      simp only [afterColon, mark, List.nil_append]
      cases made : decode m.put t with
      | none =>
        rw [made] at one
        obtain ⟨e, done⟩ := toOption_eq_none.mp one
        rw [done]
        rfl
      | some change =>
        rw [made] at one
        rw [toOption_eq_some.mp one]
        rfl

theorem putMember_ok (each : ∀ m ∈ layout.members, ReadsTrees n m.put) {p q : Progress σ}
    {key : String} {s rest : List Char} (h : layout.putMember p key levels s = .ok (q, rest)) :
    ∃ t : Tree, Spells ([':'] :: t.tokens) s rest := by
  rw [putMember] at h
  split at h
  · split at h
    · cases h
    · rename_i s' mark
      obtain ⟨_, passed, same⟩ := map_eq_ok.mp h
      cases same
      obtain ⟨t, value⟩ := skipValue_ok passed
      exact ⟨t, (spells_cons (by rfl)).mpr ⟨s', colon_ok mark, value⟩⟩
  · rename_i m found
    split at h
    · cases h
    · unfold afterColon at h
      split at h
      · cases h
      · rename_i change rest' read
        cases h
        split at read
        · cases read
        · rename_i s' mark
          obtain ⟨t, value⟩ := (each m (List.mem_of_find?_eq_some found)).sound read
          exact ⟨t, (spells_cons (by rfl)).mpr ⟨s', colon_ok mark, value⟩⟩

theorem ofObject_spelled (each : ∀ m ∈ layout.members, ReadsTrees n m.put) (enough : n ≤ levels)
    {members : List (Quoted × Tree)} {s rest : List Char}
    (spelled : Spells (memberTokens true members ++ [['\x7d']]) s rest) :
    (layout.ofObject levels s).toOption = (layout.ofMembers members).map fun r => (r, rest) := by
  have folded : (membersFrom layout.putMember levels s true ⟨layout.blank, []⟩ s).toOption =
      (members.foldlM (putKeyed layout.putValue) ⟨layout.blank, []⟩).map fun p => (p, rest) :=
    membersFrom_spelled (putMember_spelled each enough) spelled (Nat.le_refl _)
  rw [ofObject, membersTail, ofMembers]
  generalize members.foldlM (putKeyed layout.putValue) ⟨layout.blank, []⟩ = p? at folded ⊢
  cases p? with
  | none =>
    obtain ⟨e, done⟩ := toOption_eq_none.mp folded
    rw [done]
    rfl
  | some p =>
    rw [toOption_eq_some.mp folded]
    dsimp only [Option.bind_some]
    cases layout.missing? p.seen <;> rfl

theorem ofObject_ok (each : ∀ m ∈ layout.members, ReadsTrees n m.put) {r : σ} {s rest : List Char}
    (h : layout.ofObject levels s = .ok (r, rest)) :
    ∃ members, Spells (memberTokens true members ++ [['\x7d']]) s rest := by
  rw [ofObject] at h
  split at h
  · cases h
  · rename_i p rest' done
    split at h
    · cases h
    · cases h
      exact membersFrom_ok (putMember_ok each) done

/-! ### Arrays -/

/-- Reads items into their places, and the bracket after them. -/
def itemsIntoEnd (expected : String) (left : List (Member σ)) (index : Nat) (record : σ) (levels : Nat)
    (s : List Char) : Except ReadError (σ × List Char) :=
  (itemsInto expected left index record levels s).bind fun r =>
    (endList r.2).map fun rest => (r.1, rest)

theorem endList_item {first : Bool} {t : Tree} {s rest : List Char}
    (h : Spells (comma first ++ t.tokens) s rest) : (endList s).toOption = none := by
  cases first with
  | true =>
    obtain ⟨c, s', found, begins, -⟩ := Spells.begin h
    simp only [endList, found, if_neg begins.opens, if_neg begins.inside]
    rfl
  | false =>
    obtain ⟨s', separator, -⟩ := (spells_cons (by rfl)).mp h
    simp only [endList, separator, if_true]
    rw [if_neg (by decide)]
    split <;> rfl

theorem endList_ok {s rest : List Char} (h : endList s = .ok rest) : skipSpace s = ']' :: rest := by
  unfold endList at h
  split at h
  · cases h
  · rename_i c tail found
    split at h
    · rename_i closing
      cases h
      exact closing ▸ found
    split at h
    · split at h <;> cases h
    · cases h

theorem itemsIntoEnd_spelled {expected : String} {left : List (Member σ)}
    (each : ∀ m ∈ left, ReadsTrees n m.put) (enough : n ≤ levels) {items : List Tree} {index : Nat}
    {record : σ} {s rest : List Char}
    (spelled : Spells (itemTokens (index == 0) items ++ [[']']]) s rest) :
    (itemsIntoEnd expected left index record levels s).toOption =
      (placed left items record).map fun r => (r, rest) := by
  induction left generalizing items index record s with
  | nil =>
    cases items with
    | nil =>
      have closing := (spells_singleton (by rfl)).mp spelled
      simp only [itemsIntoEnd, itemsInto, Except.bind, endList_closing closing]
      rfl
    | cons t items =>
      obtain ⟨m, item, -⟩ := spells_append.mp
        (show Spells ((comma (index == 0) ++ t.tokens) ++ (itemTokens false items ++ [[']']])) s rest by
          simpa [itemTokens] using spelled)
      simp only [itemsIntoEnd, itemsInto, Except.bind, toOption_map, endList_item item]
      rfl
  | cons member left ih =>
    obtain ⟨one, others⟩ := List.forall_mem_cons.mp each
    cases items with
    | nil =>
      have closing := (spells_singleton (by rfl)).mp spelled
      by_cases defaulted : member.presence = .defaulted
      · have later : (itemsIntoEnd expected left (index + 1) record levels s).toOption =
            (placed left [] record).map fun r => (r, rest) := ih others spelled
        rw [placed, if_pos defaulted, ← later, itemsIntoEnd, itemsInto]
        simp only [nextItem?_closing _ closing, if_pos defaulted]
        rfl
      · rw [placed, if_neg defaulted, itemsIntoEnd, itemsInto]
        simp only [nextItem?_closing _ closing, if_neg defaulted]
        rfl
    | cons t items =>
      obtain ⟨m, item, later⟩ := spells_append.mp
        (show Spells ((comma (index == 0) ++ t.tokens) ++ (itemTokens false items ++ [[']']])) s rest by
          simpa [itemTokens] using spelled)
      obtain ⟨s', next, -, value⟩ := nextItem?_spelled item
      have read := one.denotes enough value (ends_items later)
      rw [placed, itemsIntoEnd, itemsInto]
      simp only [next]
      cases made : decode member.put t with
      | none =>
        rw [made] at read
        obtain ⟨e, done⟩ := toOption_eq_none.mp read
        rw [done]
        rfl
      | some change =>
        rw [made] at read
        rw [toOption_eq_some.mp read]
        exact ih others (show Spells (itemTokens (index + 1 == 0) items ++ [[']']]) m rest from later)

theorem itemsIntoEnd_ok {expected : String} {left : List (Member σ)}
    (each : ∀ m ∈ left, ReadsTrees n m.put) {index : Nat} {record r : σ} {s rest : List Char}
    (h : itemsIntoEnd expected left index record levels s = .ok (r, rest)) :
    ∃ items, Spells (itemTokens (index == 0) items ++ [[']']]) s rest := by
  induction left generalizing index record s with
  | nil =>
    obtain ⟨_, ended, same⟩ := map_eq_ok.mp (show (endList s).map _ = _ from h)
    cases same
    exact ⟨[], (spells_singleton (by rfl)).mpr (endList_ok ended)⟩
  | cons member left ih =>
    obtain ⟨one, others⟩ := List.forall_mem_cons.mp each
    rw [itemsIntoEnd, itemsInto] at h
    cases next : nextItem? (index == 0) s with
    | error e =>
      simp only [next] at h
      cases h
    | ok s'? =>
      cases s'? with
      | none =>
        obtain ⟨tail, found⟩ := nextItem?_ok_none next
        simp only [next] at h
        split at h
        · obtain ⟨items, inner⟩ := ih others h
          cases items with
          | nil => exact ⟨[], inner⟩
          | cons t items =>
            obtain ⟨_, separator, -⟩ := (spells_cons (c := ',') (by rfl)).mp inner
            rw [found] at separator
            cases separator
        · cases h
      | some s' =>
        simp only [next] at h
        cases read : member.put levels s' with
        | error e =>
          simp only [read] at h
          cases h
        | ok change =>
          simp only [read] at h
          obtain ⟨t, value⟩ := one.sound read
          obtain ⟨items, inner⟩ := ih others h
          refine ⟨t :: items, ?_⟩
          simpa [itemTokens] using spells_append.mpr ⟨_, nextItem?_ok_some next value, inner⟩

theorem ofList_eq (layout : RecordLayout σ) (levels : Nat) (s : List Char) :
    ∃ expected, layout.ofList levels s =
      itemsIntoEnd expected layout.members 0 layout.blank levels s := by
  refine ⟨layout.title ++ " with " ++
    String.ofList (NumberLayout.digits layout.members.length) ++ " elements", ?_⟩
  rw [ofList, itemsIntoEnd]
  cases itemsInto _ layout.members 0 layout.blank levels s <;> rfl

/-! ### Both forms -/

variable (layout) in
/-- What the reader of a record makes of a tree. -/
def recordValue : Tree → Option σ
  | .object members => layout.ofMembers members
  | .array items => placed layout.members items layout.blank
  | .scalar _ => none

theorem denotes_record (each : ∀ m ∈ layout.members, ReadsTrees n m.put) :
    Denotes (n + 1) layout.read layout.recordValue := by
  intro levels enough t s rest spelled ends
  obtain ⟨levels, rfl⟩ : ∃ k, levels = k + 1 := ⟨levels - 1, by omega⟩
  have enough := Nat.le_of_succ_le_succ enough
  cases t with
  | scalar v =>
    obtain ⟨c, s', found, begins, -⟩ := Spells.begin spelled
    have brace : c ≠ '\x7b' := fun same => (begins.brace same).elim fun _ => nofun
    have bracket : c ≠ '[' := fun same => (begins.bracket same).elim fun _ => nofun
    rw [RecordLayout.read, atValue_found found, if_neg brace, if_neg bracket, toOption_wrongKind]
    rfl
  | array items =>
    obtain ⟨s', found, inner⟩ := spells_array.mp spelled
    obtain ⟨expected, same⟩ := ofList_eq layout levels s'
    rw [RecordLayout.read, atValue_found found, if_neg (by decide), if_pos rfl, oneLevelDown, same]
    exact itemsIntoEnd_spelled each enough inner
  | object members =>
    obtain ⟨s', found, inner⟩ := spells_object.mp spelled
    rw [RecordLayout.read, atValue_found found, if_pos rfl, oneLevelDown]
    exact ofObject_spelled each enough inner

theorem readsTrees (each : ∀ m ∈ layout.members, ReadsTrees n m.put) (room : n + 1 ≤ nestingLimit) :
    ReadsTrees (n + 1) layout.read := by
  refine .of room (denotes_record each) fun {levels s rest r} done => ?_
  obtain ⟨c, s', found, done⟩ := atValue_ok done
  split at done
  · rename_i brace
    subst brace
    obtain ⟨levels, -, read⟩ := oneLevelDown_ok done
    obtain ⟨members, inner⟩ := ofObject_ok each read
    exact ⟨.object members, spells_object.mpr ⟨s', found, inner⟩⟩
  split at done
  · rename_i bracket
    subst bracket
    obtain ⟨levels, -, read⟩ := oneLevelDown_ok done
    obtain ⟨expected, same⟩ := ofList_eq layout levels s'
    rw [same] at read
    obtain ⟨items, inner⟩ := itemsIntoEnd_ok each read
    exact ⟨.array items, spells_array.mpr ⟨s', found, inner⟩⟩
  · exact absurd done wrongKind_ne_ok

theorem decode_record (each : ∀ m ∈ layout.members, ReadsTrees n m.put) (room : n + 1 ≤ nestingLimit)
    (t : Tree) : decode layout.read t = layout.recordValue t :=
  Denotes.decode_eq (denotes_record each) room t

end RecordLayout

end CommandDeck.Json
