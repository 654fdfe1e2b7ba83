import AccessRules.Rule.Context

/-!
# What a path leads to

A path is some names with points between them. Every text is such names in one way, empty names
included, and the value that it leads to is found by going from the value of the first name through
the members of the others:

> `follow_eq_foldl`: that the way ends at null changes nothing about where it leads.
> `resolve_append`: a path that goes on behind another leads on from where that one leads.
> `resolve_composes`: one name more is one member more, and a step without a member leads to null, as
> does everything behind it.
-/

namespace AccessRules

/-- Whether there is a member of a name: the value is a map or an object, and has one. -/
def Value.hasMember (value : Value) (name : String) : Bool :=
  match value with
  | .map entries => Dict.contains entries name
  | .object _ attributes => (attributes name).isSome
  | _ => false

/-- A member that is not there reads as null. -/
theorem Value.member_of_hasMember_eq_false {value : Value} {name : String}
    (h : value.hasMember name = false) : value.member name = .null := by
  cases value with
  | map entries =>
    have hnone : Dict.find? entries name = none :=
      Option.isNone_iff_eq_none.mp (Option.isSome_eq_false_iff.mp h)
    rw [member, hnone, Option.getD_none]
  | object identity attributes =>
    have hnone : attributes name = none :=
      Option.isNone_iff_eq_none.mp (Option.isSome_eq_false_iff.mp h)
    rw [member, hnone, Option.getD_none]
  | _ => rfl

namespace Rule.Context

variable {context : Context}

/-! ## Names with points between them -/

/-- The parts of a path are what the points in it leave between them. -/
theorem segments_eq_splitOn (cs : List Char) : segments cs = cs.splitOn '.' := by
  induction cs with
  | nil => rfl
  | cons c cs ih =>
    rw [segments, ih, List.splitOn_cons_eq_if_modifyHead]
    by_cases hc : c = '.'
    · rw [if_pos hc, if_pos (beq_iff_eq.mpr hc)]
    · rw [if_neg hc, if_neg (mt beq_iff_eq.mp hc)]
      cases hparts : cs.splitOn '.' with
      | nil => exact absurd hparts (List.splitOn_ne_nil _ _)
      | cons part parts => rfl

/-- The names that a path is made of. -/
def names (path : String) : List String :=
  (segments path.toList).map String.ofList

/-- A path that goes on behind a dot has the names of both parts. -/
theorem names_append (path rest : String) :
    names (path ++ "." ++ rest) = names path ++ names rest := by
  have hchars : (path ++ "." ++ rest).toList = path.toList ++ '.' :: rest.toList := by simp
  rw [names, hchars, segments_eq_splitOn, List.splitOn_append_cons_self, ← segments_eq_splitOn,
    ← segments_eq_splitOn, List.map_append]
  rfl

theorem names_of_notMem {name : String} (h : '.' ∉ name.toList) : names name = [name] := by
  rw [names, segments_eq_splitOn, List.splitOn_eq_singleton h, List.map_singleton,
    String.ofList_toList]

/-- Even the empty path has a first name, the empty one. -/
theorem exists_names_eq_cons (path : String) : ∃ head rest, names path = head :: rest := by
  refine List.exists_cons_of_ne_nil ?_
  rw [names, segments_eq_splitOn]
  exact mt List.map_eq_nil_iff.mp (List.splitOn_ne_nil _ _)

/-- Names without points are the names of the path that they make. -/
theorem names_intercalate {head : String} {rest : List String}
    (h : ∀ name ∈ head :: rest, '.' ∉ name.toList) :
    names (".".intercalate (head :: rest)) = head :: rest := by
  induction rest generalizing head with
  | nil => rw [String.intercalate_singleton, names_of_notMem (h head List.mem_cons_self)]
  | cons next rest ih =>
    obtain ⟨hhead, hrest⟩ := List.forall_mem_cons.mp h
    rw [String.intercalate_cons_cons, names_append, names_of_notMem hhead, ih hrest,
      List.singleton_append]

/-- A path is made of its names. -/
theorem intercalate_names (path : String) : ".".intercalate (names path) = path := by
  have hback : (names path).map String.toList = path.toList.splitOn '.' := by
    rw [names, segments_eq_splitOn, List.map_map]
    simp [Function.comp_def]
  rw [← String.toList_inj, String.toList_intercalate, hback]
  exact List.intercalate_splitOn '.'

theorem notMem_of_mem_segments {cs part : List Char} (h : part ∈ segments cs) : '.' ∉ part := by
  induction cs generalizing part with
  | nil =>
    rw [segments, List.mem_singleton] at h
    subst h
    exact List.not_mem_nil
  | cons c cs ih =>
    rw [segments] at h
    split at h
    next =>
      rcases List.mem_cons.mp h with rfl | h
      · exact List.not_mem_nil
      · exact ih h
    next hc =>
      -- A character that is no point goes in front of the first part of the rest.
      have hlead : '.' ∉ [c] := mt List.mem_singleton.mp (Ne.symm hc)
      split at h
      next =>
        rw [List.mem_singleton] at h
        subst h
        exact hlead
      next first parts hparts =>
        rw [hparts] at ih
        rcases List.mem_cons.mp h with rfl | h
        · exact List.not_mem_cons_of_ne_of_not_mem (Ne.symm hc) (ih List.mem_cons_self)
        · exact ih (List.mem_cons_of_mem _ h)

/-- No name of a path has a point in it. -/
theorem notMem_of_mem_names {path name : String} (h : name ∈ names path) : '.' ∉ name.toList := by
  obtain ⟨part, hpart, rfl⟩ := List.mem_map.mp h
  rw [String.toList_ofList]
  exact notMem_of_mem_segments hpart

/-! ## Going through members -/

/-- The way could as well go on behind null. -/
theorem follow_eq_foldl (value : Value) (names : List String) :
    follow value names = names.foldl Value.member value := by
  induction names generalizing value with
  | nil => rfl
  | cons name names ih => rw [follow_cons, ih, List.foldl_cons]

/-- Following names can be stopped and taken up again anywhere. -/
theorem follow_append (value : Value) (names rest : List String) :
    follow value (names ++ rest) = follow (follow value names) rest := by
  rw [follow_eq_foldl, follow_eq_foldl, follow_eq_foldl, List.foldl_append]

/-- The first name of a path is looked up in the context, and the others are followed from what is
found, or from null. -/
theorem resolve_of_names {path head : String} {rest : List String} (h : names path = head :: rest) :
    context.resolve path = follow ((context.get? head).getD .null) rest := by
  unfold resolve
  rw [← names, h]
  dsimp only
  cases context.get? head with
  | none => exact (follow_null rest).symm
  | some value => rfl

/-- **A path that goes on behind another leads on from where that one leads.** -/
theorem resolve_append (path rest : String) :
    context.resolve (path ++ "." ++ rest) = follow (context.resolve path) (names rest) := by
  -- The first name of the longer path is that of the shorter one, so the context is asked for the
  -- same.
  obtain ⟨head, inner, hpath⟩ := exists_names_eq_cons path
  have hwhole : names (path ++ "." ++ rest) = head :: (inner ++ names rest) := by
    rw [names_append, hpath, List.cons_append]
  rw [resolve_of_names hpath, resolve_of_names hwhole, follow_append]

/-- One more name without a dot is one more step. -/
theorem resolve_member_of_notMem {name : String} (path : String) (h : '.' ∉ name.toList) :
    context.resolve (path ++ "." ++ name) = (context.resolve path).member name := by
  rw [resolve_append, names_of_notMem h, follow_cons]
  rfl

/-- Nothing lies behind a path that leads to null. -/
theorem resolve_append_of_null {path : String} (h : context.resolve path = .null) (rest : String) :
    context.resolve (path ++ "." ++ rest) = .null := by
  rw [resolve_append, h, follow_null]

/-- **Resolving a path composes.** One name more leads to the member of that name. Every path is some
names with points between them, and such a path leads from the value of the first name through the
members of the others, whether or not the way ends at null. A step that finds no member leads to null,
and so does every path that goes on behind it; likewise a first name without a value. -/
theorem resolve_composes (context : Context) :
    (∀ path name : String, '.' ∉ name.toList →
      context.resolve (path ++ "." ++ name) = (context.resolve path).member name) ∧
    (∀ path : String, ∃ head rest, (∀ name ∈ head :: rest, '.' ∉ name.toList) ∧
      path = ".".intercalate (head :: rest)) ∧
    (∀ (head : String) (rest : List String), (∀ name ∈ head :: rest, '.' ∉ name.toList) →
      context.resolve (".".intercalate (head :: rest)) =
        rest.foldl Value.member ((context.get? head).getD .null)) ∧
    (∀ (value : Value) (names : List String),
      follow value names = names.foldl Value.member value) ∧
    (∀ path name : String, '.' ∉ name.toList → (context.resolve path).hasMember name = false →
      context.resolve (path ++ "." ++ name) = .null ∧
        ∀ rest, context.resolve (path ++ "." ++ name ++ "." ++ rest) = .null) ∧
    ∀ head : String, '.' ∉ head.toList → context.get? head = none →
      context.resolve head = .null ∧ ∀ rest, context.resolve (head ++ "." ++ rest) = .null := by
  refine ⟨fun path name => resolve_member_of_notMem path, ?_, ?_, follow_eq_foldl, ?_, ?_⟩
  · intro path
    obtain ⟨head, rest, hnames⟩ := exists_names_eq_cons path
    refine ⟨head, rest, ?_, ?_⟩
    · intro name hname
      rw [← hnames] at hname
      exact notMem_of_mem_names hname
    · rw [← hnames, intercalate_names]
  · intro head rest hpoints
    rw [resolve_of_names (names_intercalate hpoints), follow_eq_foldl]
  · intro path name hname hmember
    -- The failed step leads to null, and null has no members to go on to.
    have hnull : context.resolve (path ++ "." ++ name) = .null := by
      rw [resolve_member_of_notMem path hname, Value.member_of_hasMember_eq_false hmember]
    exact ⟨hnull, resolve_append_of_null hnull⟩
  · intro head hhead hget
    have hnull : context.resolve head = .null := by
      rw [resolve_of_names (names_of_notMem hhead), hget, Option.getD_none, follow_null]
    exact ⟨hnull, resolve_append_of_null hnull⟩

/-- A path of two empty names, one that leads through a map and an object, and ones that end early: at a
number, at an attribute that the object lacks and at a name without a value. -/
theorem resolve_composes_user_profile :
    let profile : Value :=
      .object 1 fun name => if name = "name" then some (.string "kim") else none
    let context : Context :=
      ⟨[("", .map [("", .int 7)]), ("user", .map [("id", .int 3), ("profile", profile)])]⟩
    context.resolve ("" ++ "." ++ "") = .int 7 ∧
      context.resolve (".".intercalate ["user", "profile", "name"]) = .string "kim" ∧
      (context.resolve ("user.id" ++ "." ++ "more") = .null ∧
        context.resolve ("user.profile" ++ "." ++ "age" ++ "." ++ "in.years") = .null) ∧
      context.resolve ("record" ++ "." ++ "owner_id") = .null := by
  intro profile context
  obtain ⟨hstep, -, hpath, -, hmissing, hhead⟩ := resolve_composes context
  refine ⟨?_, ?_, ⟨?_, ?_⟩, ?_⟩
  · rw [hstep "" "" (by decide)]
    rfl
  · rw [hpath "user" ["profile", "name"] (by decide)]
    rfl
  · exact (hmissing "user.id" "more" (by decide) rfl).1
  · exact (hmissing "user.profile" "age" (by decide) rfl).2 "in.years"
  · exact (hhead "record" (by decide) rfl).2 "owner_id"

end Rule.Context

end AccessRules
