import BenchSweep.Proofs.Json.Reader

/-!
# Records are read member by member

An object describes a record by its members. Each member of a known name sets a field, every other
member is skipped, and the order of the members is the order in which the fields are set. A known
name that comes again stops the reading, and so does a member whose own reading is stopped by a name
that comes again.

## What a record asks of its fields

A record is a list of fields, each with a name, a reader and a function that sets it. For a result
about one field it has to be known that the name belongs to this field and that the others leave its
part alone. `FieldAt` says this once for a field, and then `FieldAt.get_foldl` reads off what all
members together make of its part, whatever their order is. The records of a configuration are
instances, with nothing to prove but which part is whose.

## Why a name that comes again is told by a count

The reader keeps the names that it has seen, and stops at the member whose name is among them.
Whether that happens does not depend on where the two members are, so it is told by how often a name
comes, in front of any member or among those that are left. The induction is on the members, with
the names that have been seen so far on the one side.

## Main definitions

* `Effect`: what a member does to a record.
* `Repeats`: a name of a list comes twice among the members of an object.
* `Stops`: a reader is stopped by a name that comes again.

## Main results

* `takes_readRecord`: an object is read as the record that its members give one after the other.
* `stops_readRecord`: a name that comes again stops the reading of an object.
-/

namespace BenchSweep.Json

variable {α : Type}

/-- What a member does to a record: it sets a field, or it is skipped. -/
inductive Effect (fields : List (RecordField α)) (m : String × List Char) : (α → α) → Prop
  | unknown (hname : fields.find? (·.name = m.1) = none) (hvalue : IsValue m.2) :
      Effect fields m id
  | known {field : RecordField α} {set : α → α} (hname : fields.find? (·.name = m.1) = some field)
      (htakes : Takes field.read m.2 set) : Effect fields m set

/-- A reader stops in a text because a name comes again. -/
def Stops (read : Reader α) (s : List Char) : Prop :=
  ∀ before rest, Blanks before → Closed rest →
    ∃ name unread, read (before ++ (s ++ rest)) = .error ⟨.duplicate name, unread⟩

/-- How often a name comes among the members of an object. -/
def nameCount (name : String) (members : List (String × List Char)) : ℕ :=
  (members.map Prod.fst).count name

/-- A name of a list comes twice among the members of an object. -/
def Repeats (names : List String) (members : List (String × List Char)) : Prop :=
  ∃ name ∈ names, 2 ≤ nameCount name members

/-- The names of fields that have been read, after one more name. -/
def mark (fields : List (RecordField α)) (name : String) (seen : List String) : List String :=
  if name ∈ fields.map RecordField.name then name :: seen else seen

theorem find?_eq_none_iff {fields : List (RecordField α)} {name : String} :
    fields.find? (·.name = name) = none ↔ name ∉ fields.map RecordField.name := by
  simp only [List.find?_eq_none, decide_eq_true_eq, List.mem_map, not_exists, not_and]

theorem mem_names_of_find? {fields : List (RecordField α)} {name : String} {field : RecordField α}
    (h : fields.find? (·.name = name) = some field) : name ∈ fields.map RecordField.name := by
  by_contra hname
  rw [find?_eq_none_iff.2 hname] at h
  cases h

/-! ### One member -/

theorem nextMember_first {s t : List Char} (h : skipBlanks s = '"' :: t) :
    nextMember true s = .ok (true, t) := by
  rw [nextMember, h]
  rfl

theorem nextMember_comma {s rest t : List Char} (h : skipBlanks s = ',' :: rest)
    (hrest : skipBlanks rest = '"' :: t) : nextMember false s = .ok (true, t) := by
  rw [nextMember, h]
  split
  · next heq => cases heq
  · next heq => exact absurd (List.cons.inj heq).1 (by decide)
  · next heq =>
    obtain ⟨rfl, rfl⟩ := List.cons.inj heq
    rw [if_neg Bool.false_ne_true, if_pos rfl, hrest]
    rfl

theorem nextMember_close {s rest : List Char} (h : skipBlanks s = '\x7d' :: rest) (first : Bool) :
    nextMember first s = .ok (false, '\x7d' :: rest) := by
  rw [nextMember, h]
  rfl

theorem readColon_append {b : List Char} (hb : Blanks b) (rest : List Char) :
    readColon (b ++ ':' :: rest) = .ok rest := by
  rw [readColon, skipBlanks_append hb, skipBlanks_cons (by decide)]
  rfl

theorem exists_stopAtDuplicate {β : Type} (name : String) (s : List Char) :
    ∃ unread, (stopAtDuplicate name s : Except Stop β) = .error ⟨.duplicate name, unread⟩ := by
  rw [stopAtDuplicate]
  split
  · exact ⟨_, rfl⟩
  · exact ⟨_, rfl⟩

section Member

variable {fields : List (RecordField α)} {s s₀ next : List Char} {m : String × List Char}
  {first : Bool} {seen : List String}

/-- Once its opening quote is reached, the name of a member is read, up to the colon. -/
theorem exists_readString_member (h : IsMember IsString s m)
    (hreach : ∀ t, skipBlanks (s ++ next) = '"' :: t → nextMember first s₀ = .ok (true, t)) :
    ∃ t between before after, Blanks between ∧ Blanks before ∧ Blanks after ∧
      nextMember first s₀ = .ok (true, t) ∧
      readString t = .ok (m.1, between ++ ':' :: (before ++ (m.2 ++ (after ++ next)))) := by
  obtain ⟨key, name, value, rfl, ⟨blanks, between, hblanks, hbetween, rfl⟩, ⟨body, rfl, hbody⟩,
    before, after, hbefore, hafter, rfl⟩ := h
  refine ⟨body ++ '"' :: (between ++ ':' :: (before ++ (m.2 ++ (after ++ next)))), between, before,
    after, hbetween, hbefore, hafter, hreach _ ?_, ?_⟩
  · simp only [List.append_assoc, List.cons_append, List.nil_append]
    rw [skipBlanks_append hblanks, skipBlanks_cons (by decide)]
  · rw [readString_chars hbody, String.ofList_toList]

/-- A member that does not come again does what it does to the record. -/
theorem exists_readMembers_effect {g : α → α} (h : IsMember IsString s m) (hg : Effect fields m g)
    (hseen : m.1 ∈ fields.map RecordField.name → m.1 ∉ seen)
    (hreach : ∀ t, skipBlanks (s ++ next) = '"' :: t → nextMember first s₀ = .ok (true, t))
    (hclosed : Closed next) : ∃ after, Blanks after ∧ ∀ fuel record,
      readMembers fields (fuel + 1) first seen record s₀ =
        readMembers fields fuel false (mark fields m.1 seen) (g record) (after ++ next) := by
  obtain ⟨t, between, before, after, hbetween, hbefore, hafter, hnext, hname⟩ :=
    exists_readString_member h hreach
  have hclosed := closed_append hafter hclosed
  refine ⟨after, hafter, fun fuel record => ?_⟩
  rw [readMembers, hnext]
  dsimp only
  rw [hname]
  dsimp only
  cases hg with
  | unknown hunknown hvalue =>
    rw [hunknown, mark, if_neg (find?_eq_none_iff.1 hunknown), readColon_append hbetween]
    dsimp only [bind, Except.bind]
    rw [skip_value hvalue hbefore hclosed]
    rfl
  | known hknown htakes =>
    have hmem := mem_names_of_find? hknown
    rw [hknown, mark, if_pos hmem, readColon_append hbetween]
    dsimp only [bind, Except.bind]
    rw [if_neg (hseen hmem), htakes before _ hbefore hclosed]

/-- A known member that comes again stops the reading. -/
theorem exists_readMembers_seen (h : IsMember IsString s m)
    (hname : m.1 ∈ fields.map RecordField.name) (hseen : m.1 ∈ seen)
    (hreach : ∀ t, skipBlanks (s ++ next) = '"' :: t → nextMember first s₀ = .ok (true, t))
    (fuel : ℕ) (record : α) : ∃ name unread,
      readMembers fields (fuel + 1) first seen record s₀ = .error ⟨.duplicate name, unread⟩ := by
  obtain ⟨t, between, before, after, -, -, -, hnext, hread⟩ := exists_readString_member h hreach
  obtain ⟨field, hfield⟩ := Option.ne_none_iff_exists'.1 (mt find?_eq_none_iff.1 (not_not.2 hname))
  obtain ⟨unread, hstop⟩ : ∃ unread,
      (stopAtDuplicate m.1 (between ++ ':' :: (before ++ (m.2 ++ (after ++ next)))) : Result α) =
        .error ⟨.duplicate m.1, unread⟩ := exists_stopAtDuplicate ..
  refine ⟨m.1, unread, ?_⟩
  rw [readMembers, hnext]
  dsimp only
  rw [hread]
  dsimp only
  rw [hfield]
  dsimp only
  rw [if_pos hseen, hstop]

/-- A member in which a name comes again stops the reading. -/
theorem exists_readMembers_stops {field : RecordField α} (h : IsMember IsString s m)
    (hname : fields.find? (·.name = m.1) = some field) (hstops : Stops field.read m.2)
    (hseen : m.1 ∉ seen)
    (hreach : ∀ t, skipBlanks (s ++ next) = '"' :: t → nextMember first s₀ = .ok (true, t))
    (hclosed : Closed next) (fuel : ℕ) (record : α) : ∃ name unread,
      readMembers fields (fuel + 1) first seen record s₀ = .error ⟨.duplicate name, unread⟩ := by
  obtain ⟨t, between, before, after, hbetween, hbefore, hafter, hnext, hread⟩ :=
    exists_readString_member h hreach
  obtain ⟨name, unread, hstop⟩ := hstops before _ hbefore (closed_append hafter hclosed)
  refine ⟨name, unread, ?_⟩
  rw [readMembers, hnext]
  dsimp only
  rw [hread]
  dsimp only
  rw [hname]
  dsimp only
  rw [if_neg hseen, readColon_append hbetween]
  dsimp only [bind, Except.bind]
  rw [hstop]

end Member

/-! ### All members -/

section Members

variable {fields : List (RecordField α)} {s s₀ rest : List Char}
  {members : List (String × List Char)}

theorem nameCount_cons (name : String) (m : String × List Char)
    (members : List (String × List Char)) :
    nameCount name (m :: members) = nameCount name members + if m.1 = name then 1 else 0 := by
  rw [nameCount, nameCount, List.map_cons, List.count_cons]
  simp

/-- Known names are only moved from the members that are left to those that are read. -/
theorem count_mark {name : String} (hname : name ∈ fields.map RecordField.name)
    (m : String × List Char) (members : List (String × List Char)) (seen : List String) :
    (mark fields m.1 seen).count name + nameCount name members =
      seen.count name + nameCount name (m :: members) := by
  rw [nameCount_cons, mark]
  split
  · rw [List.count_cons]
    simp only [beq_iff_eq]
    omega
  · next hunknown =>
    rw [if_neg (by rintro rfl; exact hunknown hname), Nat.add_zero]

/-- After the comma that follows a member, the next one is reached. -/
theorem nextMember_after {after : List Char} (hafter : Blanks after) {t : List Char}
    (h : skipBlanks s = '"' :: t) : nextMember false (after ++ ',' :: s) = .ok (true, t) := by
  refine nextMember_comma ?_ h
  rw [skipBlanks_append hafter, skipBlanks_cons (by decide)]

/-- The members of an object are read up to the closing brace, once the first is reached. -/
theorem readMembers_series {effects : List (α → α)} (h : IsSeries (IsMember IsString) s members)
    (heffects : List.Forall₂ (Effect fields) members effects) {seen : List String}
    (hcount : ∀ name ∈ fields.map RecordField.name, seen.count name + nameCount name members ≤ 1)
    {fuel : ℕ} (hfuel : members.length < fuel) {first : Bool} (record : α)
    (hreach : ∀ t, skipBlanks (s ++ '\x7d' :: rest) = '"' :: t →
      nextMember first s₀ = .ok (true, t)) :
    readMembers fields fuel first seen record s₀ =
      .ok (effects.foldl (fun record effect => effect record) record, '\x7d' :: rest) := by
  have hunseen {m : String × List Char} {members : List (String × List Char)} {seen : List String}
      (hcount : ∀ name ∈ fields.map RecordField.name,
        seen.count name + nameCount name (m :: members) ≤ 1)
      (hm : m.1 ∈ fields.map RecordField.name) : m.1 ∉ seen := by
    have := hcount m.1 hm
    rw [nameCount_cons, if_pos rfl] at this
    rw [← List.count_eq_zero]
    omega
  induction h generalizing effects seen fuel first record s₀ with
  | @one s m hmember =>
    obtain ⟨g, _, hg, hnil, rfl⟩ := List.forall₂_cons_left_iff.1 heffects
    obtain rfl := List.forall₂_nil_left_iff.1 hnil
    obtain ⟨after, hafter, hread⟩ := exists_readMembers_effect hmember hg (hunseen hcount) hreach
      (closed_cons rest (.inr (.inr rfl)))
    have hend : skipBlanks (after ++ '\x7d' :: rest) = '\x7d' :: rest := by
      rw [skipBlanks_append hafter, skipBlanks_cons (by decide)]
    obtain ⟨fuel, rfl⟩ : ∃ n, fuel = n + 1 + 1 :=
      ⟨fuel - 2, by rw [List.length_singleton] at hfuel; omega⟩
    rw [hread, readMembers, nextMember_close hend]
    rfl
  | @more s rest' m members hmember hseries ih =>
    obtain ⟨g, effects, hg, hlater, rfl⟩ := List.forall₂_cons_left_iff.1 heffects
    rw [List.append_assoc, List.cons_append] at hreach
    obtain ⟨after, hafter, hread⟩ := exists_readMembers_effect hmember hg (hunseen hcount) hreach
      (closed_cons _ (.inl rfl))
    obtain ⟨fuel, rfl⟩ : ∃ n, fuel = n + 1 := ⟨fuel - 1, by omega⟩
    rw [hread, ih hlater (fun name hname => count_mark hname m members seen ▸ hcount name hname)
      (by simpa using hfuel) _ fun t ht => nextMember_after hafter ht]
    rfl

/-- A known member in which a name comes again. -/
def IsStopped (fields : List (RecordField α)) (m : String × List Char) : Prop :=
  ∃ field, fields.find? (·.name = m.1) = some field ∧ Stops field.read m.2

theorem count_mark_le {seen : List String} (m : String × List Char)
    (hseen : ∀ name ∈ fields.map RecordField.name, seen.count name ≤ 1)
    (hm : m.1 ∈ fields.map RecordField.name → m.1 ∉ seen) :
    ∀ name ∈ fields.map RecordField.name, (mark fields m.1 seen).count name ≤ 1 := by
  intro name hname
  have hold := hseen name hname
  rw [mark]
  split
  · next hknown =>
    rw [List.count_cons]
    split
    · next heq =>
      rw [← beq_iff_eq.1 heq, List.count_eq_zero.2 (hm hknown)]
    · omega
  · exact hold

/-- A member stops the reading, or it is new and does something to the record. -/
theorem stops_or_effect {next : List Char} {m : String × List Char} {first : Bool}
    {seen : List String} (h : IsMember IsString s m)
    (hm : (∃ g, Effect fields m g) ∨ IsStopped fields m)
    (hreach : ∀ t, skipBlanks (s ++ next) = '"' :: t → nextMember first s₀ = .ok (true, t))
    (hclosed : Closed next) (fuel : ℕ) (record : α) :
    (∃ name unread, readMembers fields (fuel + 1) first seen record s₀ =
      .error ⟨.duplicate name, unread⟩) ∨
    (m.1 ∈ fields.map RecordField.name → m.1 ∉ seen) ∧ ¬IsStopped fields m ∧
      ∃ g, Effect fields m g := by
  by_cases hagain : m.1 ∈ fields.map RecordField.name ∧ m.1 ∈ seen
  · exact .inl (exists_readMembers_seen h hagain.1 hagain.2 hreach fuel record)
  have hnew (hm : m.1 ∈ fields.map RecordField.name) : m.1 ∉ seen := fun h => hagain ⟨hm, h⟩
  by_cases hstopped : IsStopped fields m
  · obtain ⟨field, hfield, hstops⟩ := hstopped
    exact .inl (exists_readMembers_stops h hfield hstops (hnew (mem_names_of_find? hfield)) hreach
      hclosed fuel record)
  · exact .inr ⟨hnew, hstopped, hm.resolve_right hstopped⟩

/-- A name that comes again stops the reading of the members, once the first is reached. -/
theorem exists_readMembers_of_repeats (h : IsSeries (IsMember IsString) s members)
    (hmembers : ∀ m ∈ members, (∃ g, Effect fields m g) ∨ IsStopped fields m) {seen : List String}
    (hseen : ∀ name ∈ fields.map RecordField.name, seen.count name ≤ 1)
    (hcause : (∃ name ∈ fields.map RecordField.name,
      2 ≤ seen.count name + nameCount name members) ∨ ∃ m ∈ members, IsStopped fields m)
    {fuel : ℕ} (hfuel : members.length < fuel) {first : Bool} (record : α)
    (hreach : ∀ t, skipBlanks (s ++ '\x7d' :: rest) = '"' :: t →
      nextMember first s₀ = .ok (true, t)) :
    ∃ name unread, readMembers fields fuel first seen record s₀ =
      .error ⟨.duplicate name, unread⟩ := by
  obtain ⟨fuel, rfl⟩ := Nat.exists_eq_add_one_of_ne_zero (Nat.ne_zero_of_lt hfuel)
  induction h generalizing seen fuel first record s₀ with
  | @one s m hmember =>
    rcases stops_or_effect hmember (hmembers m List.mem_cons_self) hreach
      (closed_cons rest (.inr (.inr rfl))) fuel record with hstop | ⟨hnew, hstopped, -⟩
    · exact hstop
    -- no other member is left that could stop the reading
    · exfalso
      rcases hcause with ⟨name, hname, htwo⟩ | ⟨m', hm', hstopped'⟩
      · have hmark := count_mark_le m hseen hnew name hname
        rw [← count_mark hname, nameCount, List.map_nil, List.count_nil] at htwo
        omega
      · exact hstopped (List.mem_singleton.1 hm' ▸ hstopped')
  | @more s rest' m members hmember hseries ih =>
    rw [List.append_assoc, List.cons_append] at hreach
    obtain ⟨hm, hlater⟩ := List.forall_mem_cons.1 hmembers
    rcases stops_or_effect hmember hm hreach (closed_cons _ (.inl rfl)) fuel record with
      hstop | ⟨hnew, hstopped, g, hg⟩
    · exact hstop
    obtain ⟨after, hafter, hread⟩ := exists_readMembers_effect hmember hg hnew hreach
      (closed_cons _ (.inl rfl))
    obtain ⟨fuel, rfl⟩ : ∃ n, fuel = n + 1 :=
      ⟨fuel - 1, by rw [List.length_cons] at hfuel; omega⟩
    rw [hread]
    refine ih hlater (count_mark_le m hseen hnew) ?_ _ (fun t ht => nextMember_after hafter ht)
      fuel (by simpa using hfuel)
    rcases hcause with ⟨name, hname, htwo⟩ | ⟨m', hm', hstopped'⟩
    · exact .inl ⟨name, hname, count_mark hname m members seen ▸ htwo⟩
    · rcases List.mem_cons.1 hm' with rfl | hm'
      · exact absurd hstopped' hstopped
      · exact .inr ⟨m', hm', hstopped'⟩

end Members

/-! ### Records -/

section Records

variable {fields : List (RecordField α)} {s : List Char} {members : List (String × List Char)}

theorem head?_of_isString {s : List Char} {value : String} (h : IsString s value) :
    s.head? = some '"' := by
  obtain ⟨body, rfl, -⟩ := h
  rfl

/-- After the opening brace, the members are read and the closing brace is looked for. -/
theorem readRecord_append {before body rest : List Char} (hbefore : Blanks before)
    (expected : String) (fields : List (RecordField α)) (default : α) :
    readRecord expected fields default (before ++ ('\x7b' :: (body ++ ['\x7d']) ++ rest)) =
      closeWith closeObject (readMembers fields ((body ++ '\x7d' :: rest).length + 1) true []
        default (body ++ '\x7d' :: rest)) := by
  rw [readRecord, skipBlanks_append hbefore, List.cons_append, skipBlanks_cons (by decide),
    List.append_assoc, List.singleton_append]
  rfl

theorem closeObject_cons (rest : List Char) : closeObject ('\x7d' :: rest) = .ok rest := by
  rw [closeObject, skipBlanks_cons (by decide)]
  rfl

/-- **An object without repeated names is read as the record that its members give.** -/
theorem takes_readRecord {effects : List (α → α)} (h : IsObject IsString s members)
    (heffects : List.Forall₂ (Effect fields) members effects)
    (hrepeats : ¬Repeats (fields.map RecordField.name) members) (expected : String) (default : α) :
    Takes (readRecord expected fields default) s
      (effects.foldl (fun record effect => effect record) default) := by
  obtain ⟨body, rfl, hbody⟩ := h
  intro before rest hbefore _
  have hread : readMembers fields ((body ++ '\x7d' :: rest).length + 1) true [] default
      (body ++ '\x7d' :: rest) =
        .ok (effects.foldl (fun record effect => effect record) default, '\x7d' :: rest) := by
    cases hbody with
    | blank hblank =>
      obtain rfl := List.forall₂_nil_left_iff.1 heffects
      have hend : skipBlanks (body ++ '\x7d' :: rest) = '\x7d' :: rest := by
        rw [skipBlanks_append hblank, skipBlanks_cons (by decide)]
      rw [readMembers, nextMember_close hend]
      rfl
    | series hseries =>
      have hlength := length_le_of_series hseries
      refine readMembers_series hseries heffects (fun name hname => ?_) (by simp; omega) default
        fun t ht => nextMember_first ht
      rw [List.count_nil, Nat.zero_add]
      by_contra htwo
      exact hrepeats ⟨name, hname, by omega⟩
  rw [readRecord_append hbefore, hread, closeWith, closeObject_cons]
  rfl

/-- **A name that comes again stops the reading of an object.** -/
theorem stops_readRecord (h : IsObject IsString s members)
    (hmembers : ∀ m ∈ members, (∃ g, Effect fields m g) ∨ IsStopped fields m)
    (hcause : Repeats (fields.map RecordField.name) members ∨ ∃ m ∈ members, IsStopped fields m)
    (expected : String) (default : α) : Stops (readRecord expected fields default) s := by
  obtain ⟨body, rfl, hbody⟩ := h
  intro before rest hbefore _
  cases hbody with
  | blank =>
    rcases hcause with ⟨name, -, htwo⟩ | ⟨m, hm, -⟩
    · cases htwo
    · cases hm
  | series hseries =>
    have hlength := length_le_of_series hseries
    obtain ⟨name, unread, hread⟩ : ∃ name unread,
        readMembers fields ((body ++ '\x7d' :: rest).length + 1) true [] default
          (body ++ '\x7d' :: rest) = .error ⟨.duplicate name, unread⟩ := by
      refine exists_readMembers_of_repeats hseries hmembers (fun name _ => by simp)
        (hcause.imp_left fun ⟨name, hname, htwo⟩ => ⟨name, hname, ?_⟩) (by simp; omega) default
        fun t ht => nextMember_first ht
      rwa [List.count_nil, Nat.zero_add]
    refine ⟨name, unread, ?_⟩
    rw [readRecord_append hbefore, hread, closeWith]

end Records

/-! ### Fields -/

section Fields

variable {β γ : Type} {fields : List (RecordField α)} {members : List (String × List Char)}
  {name : String} {IsItem : List Char → γ → Prop}

/-- Among the members, a name comes once, with the text of a value, or it does not come. -/
def FieldIn (members : List (String × List Char)) (name : String) (IsItem : List Char → γ → Prop) :
    Option γ → Prop
  | none => name ∉ members.map Prod.fst
  | some value => ∃ before text after, members = before ++ (name, text) :: after ∧
      name ∉ before.map Prod.fst ∧ name ∉ after.map Prod.fst ∧ IsItem text value

/-- Among members of different names, a name comes once. -/
theorem FieldIn.of_nodup {text : List Char} {value : γ} (hnodup : (members.map Prod.fst).Nodup)
    (hmem : (name, text) ∈ members) (h : IsItem text value) :
    FieldIn members name IsItem (some value) := by
  obtain ⟨before, after, rfl⟩ := List.append_of_mem hmem
  rw [List.map_append, List.map_cons, List.nodup_middle, List.nodup_cons, List.mem_append,
    not_or] at hnodup
  exact ⟨before, text, after, rfl, hnodup.1.1, hnodup.1.2, h⟩

theorem FieldIn.nameCount_le {value : Option γ} (h : FieldIn members name IsItem value) :
    nameCount name members ≤ 1 := by
  cases value with
  | none =>
    rw [nameCount, List.count_eq_zero.2 h]
    exact Nat.zero_le 1
  | some value =>
    obtain ⟨before, text, after, rfl, hbefore, hafter, -⟩ := h
    rw [nameCount, List.map_append, List.map_cons, List.count_append, List.count_cons_self,
      List.count_eq_zero.2 hbefore, List.count_eq_zero.2 hafter]

/-- The text of a member of the name is that of a value. -/
theorem FieldIn.exists_item {value : Option γ} (h : FieldIn members name IsItem value)
    {m : String × List Char} (hm : m ∈ members) (hname : m.1 = name) : ∃ v, IsItem m.2 v := by
  cases value with
  | none => exact absurd (List.mem_map.2 ⟨m, hm, hname⟩) h
  | some value =>
    obtain ⟨before, text, after, rfl, hbefore, hafter, hitem⟩ := h
    rcases List.mem_append.1 hm with hm | hm
    · exact absurd (List.mem_map.2 ⟨m, hm, hname⟩) hbefore
    rcases List.mem_cons.1 hm with rfl | hm
    · exact ⟨value, hitem⟩
    · exact absurd (List.mem_map.2 ⟨m, hm, hname⟩) hafter

/-- A reader takes at most one value from a text. -/
theorem Takes.unique {read : Reader β} {s : List Char} {v v' : β} (h : Takes read s v)
    (h' : Takes read s v') : v = v' := by
  have hblank : Blanks [] := by simp [Blanks]
  have heq := (h [] [] hblank closed_nil).symm.trans (h' [] [] hblank closed_nil)
  exact (Prod.mk.inj (Except.ok.inj heq)).1

theorem Takes.of {read : Reader β} {set : β → α → α} {s : List Char} {v : β} (h : Takes read s v)
    (name : String) : Takes (RecordField.of name read set).read s (set v) := by
  intro before rest hbefore hrest
  rw [RecordField.of]
  dsimp only
  rw [h before rest hbefore hrest]
  rfl

theorem Stops.of {read : Reader β} {set : β → α → α} {s : List Char} (h : Stops read s)
    (name : String) : Stops (RecordField.of name read set).read s := by
  intro before rest hbefore hrest
  obtain ⟨name', unread, hread⟩ := h before rest hbefore hrest
  refine ⟨name', unread, ?_⟩
  rw [RecordField.of]
  dsimp only
  rw [hread]
  rfl

/-- What a field does is what the record is changed by for some value. -/
theorem exists_eq_set_of_takes {read : Reader β} {set : β → α → α} {s : List Char} {g : α → α}
    (h : Takes (RecordField.of name read set).read s g) : ∃ v, g = set v := by
  have heq := h [] [] (by simp [Blanks]) closed_nil
  rw [RecordField.of] at heq
  dsimp only at heq
  cases hread : read ([] ++ (s ++ [])) with
  | error stop =>
    rw [hread] at heq
    cases heq
  | ok result =>
    rw [hread] at heq
    exact ⟨result.1, (Prod.mk.inj (Except.ok.inj heq)).1.symm⟩

theorem exists_effects (h : ∀ m ∈ members, ∃ g, Effect fields m g) :
    ∃ effects, List.Forall₂ (Effect fields) members effects := by
  induction members with
  | nil => exact ⟨[], .nil⟩
  | cons m members ih =>
    obtain ⟨⟨g, hg⟩, hlater⟩ := List.forall_mem_cons.1 h
    obtain ⟨effects, heffects⟩ := ih hlater
    exact ⟨g :: effects, .cons hg heffects⟩

/-- A part of a record that is left alone by all fields of other names. -/
def Keeps (fields : List (RecordField α)) (name : String) (get : α → β) : Prop :=
  ∀ field ∈ fields, field.name ≠ name → ∀ s set, Takes field.read s set →
    ∀ record, get (set record) = get record

theorem Effect.get_eq {get : α → β} (hkeeps : Keeps fields name get) {m : String × List Char}
    {g : α → α} (hg : Effect fields m g) (hm : m.1 ≠ name) (record : α) :
    get (g record) = get record := by
  cases hg with
  | unknown => rfl
  | @known field _ hname htakes =>
    have hfield : field.name = m.1 := by simpa using List.find?_some hname
    exact hkeeps field (List.mem_of_find?_eq_some hname) (hfield ▸ hm) m.2 g htakes record

theorem get_foldl_of_not_mem {get : α → β} (hkeeps : Keeps fields name get)
    (hname : name ∉ members.map Prod.fst) {effects : List (α → α)}
    (heffects : List.Forall₂ (Effect fields) members effects) (record : α) :
    get (effects.foldl (fun record effect => effect record) record) = get record := by
  induction heffects generalizing record with
  | nil => rfl
  | cons hg _ ih =>
    rw [List.map_cons, List.mem_cons, not_or] at hname
    rw [List.foldl_cons, ih hname.2, hg.get_eq hkeeps (Ne.symm hname.1)]

/-- A part of a record that a field of another name leaves alone. -/
def IsKeptBy (name : String) (get : α → β) (field : RecordField α) : Prop :=
  field.name ≠ name → ∀ s set, Takes field.read s set → ∀ record, get (set record) = get record

@[simp] theorem isKeptBy_of {n : String} {read : Reader γ} {set : γ → α → α} {get : α → β}
    (hset : n ≠ name → ∀ v record, get (set v record) = get record) :
    IsKeptBy name get (.of n read set) := by
  rintro hname s g htakes record
  obtain ⟨v, rfl⟩ := exists_eq_set_of_takes htakes
  exact hset hname v record

@[simp] theorem keeps_nil (name : String) (get : α → β) : Keeps [] name get := by
  rintro field hfield
  cases hfield

@[simp] theorem keeps_cons {field : RecordField α} {get : α → β} :
    Keeps (field :: fields) name get ↔ IsKeptBy name get field ∧ Keeps fields name get :=
  List.forall_mem_cons

/-- Among the fields of a record is one of a certain name, which sets a part that the others leave
alone. -/
structure FieldAt (fields : List (RecordField α)) (name : String) (read : Reader β)
    (set : β → α → α) (get : α → β) : Prop where
  find : fields.find? (·.name = name) = some (.of name read set)
  get_set : ∀ v record, get (set v record) = v
  keeps : Keeps fields name get

/-- **A field has its value if its name comes, and else keeps what it was.** -/
theorem FieldAt.get_foldl {get : α → β} {f : γ → β} {read : Reader β} {set : β → α → α}
    (hfield : FieldAt fields name read set get) (hitem : ∀ s v, IsItem s v → Takes read s (f v))
    {value : Option γ} (h : FieldIn members name IsItem value) {effects : List (α → α)}
    (heffects : List.Forall₂ (Effect fields) members effects) (record : α) :
    get (effects.foldl (fun record effect => effect record) record) =
      (value.map f).getD (get record) := by
  cases value with
  | none => exact get_foldl_of_not_mem hfield.keeps h heffects record
  | some value =>
    obtain ⟨before, text, after, rfl, -, hafter, htext⟩ := h
    induction before generalizing effects record with
    | nil =>
      obtain ⟨g, effects, hg, hlater, rfl⟩ := List.forall₂_cons_left_iff.1 heffects
      rw [List.foldl_cons, get_foldl_of_not_mem hfield.keeps hafter hlater]
      cases hg with
      | unknown hunknown =>
        rw [hfield.find] at hunknown
        cases hunknown
      | known hknown htakes =>
        obtain rfl := Option.some.inj (hfield.find.symm.trans hknown)
        rw [htakes.unique ((hitem text value htext).of name), hfield.get_set]
        rfl
    | cons m before ih =>
      obtain ⟨g, effects, -, hlater, rfl⟩ := List.forall₂_cons_left_iff.1 heffects
      exact ih (g record) hlater

theorem FieldAt.get_foldl_self {get : α → β} {IsItem : List Char → β → Prop} {read : Reader β}
    {set : β → α → α} (hfield : FieldAt fields name read set get)
    (hitem : ∀ s v, IsItem s v → Takes read s v) {value : Option β}
    (h : FieldIn members name IsItem value) {effects : List (α → α)}
    (heffects : List.Forall₂ (Effect fields) members effects) (record : α) :
    get (effects.foldl (fun record effect => effect record) record) = value.getD (get record) := by
  rw [hfield.get_foldl (f := id) hitem h heffects, Option.map_id, id]

theorem FieldAt.exists_effect {get : α → β} {read : Reader β} {set : β → α → α}
    (hfield : FieldAt fields name read set get) {m : String × List Char} (hname : m.1 = name)
    {v : β} (htakes : Takes read m.2 v) : ∃ g, Effect fields m g := by
  subst hname
  exact ⟨_, .known hfield.find (htakes.of m.1)⟩

theorem FieldAt.isStopped {get : α → β} {read : Reader β} {set : β → α → α}
    (hfield : FieldAt fields name read set get) {m : String × List Char} (hname : m.1 = name)
    (hstops : Stops read m.2) : IsStopped fields m := by
  subst hname
  exact ⟨_, hfield.find, hstops.of m.1⟩

end Fields

/-! ### Whole texts -/

theorem read_of_takes {reader : Reader α} {s : List Char} {value : α} (h : Takes reader s value)
    {before after : List Char} (hbefore : Blanks before) (hafter : Blanks after) :
    read reader (before ++ (s ++ after)) = .ok value := by
  have hclosed : Closed after := List.append_nil after ▸ closed_append hafter closed_nil
  have hend : skipBlanks after = [] := by
    rw [← List.append_nil after, skipBlanks_append hafter]
    rfl
  rw [read, h before after hbefore hclosed]
  dsimp only
  rw [hend]

theorem read_of_stops {reader : Reader α} {s : List Char} (h : Stops reader s)
    {before after : List Char} (hbefore : Blanks before) (hafter : Blanks after) :
    ∃ name line column,
      read reader (before ++ (s ++ after)) = .error ⟨.duplicate name, line, column⟩ := by
  have hclosed : Closed after := List.append_nil after ▸ closed_append hafter closed_nil
  obtain ⟨name, unread, hread⟩ := h before after hbefore hclosed
  let fault := Stop.inText ⟨.duplicate name, unread⟩ (before ++ (s ++ after))
  refine ⟨name, fault.line, fault.column, ?_⟩
  rw [read, hread]
  rfl

end BenchSweep.Json
