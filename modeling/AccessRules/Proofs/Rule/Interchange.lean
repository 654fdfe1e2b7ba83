import AccessRules.Proofs.Rule.Paths

/-!
# Maps and objects behind member access

What is known about a user or a record may come as a map or as an object that answers for its
attributes. The two are not the same value: an object counts as true where an empty map does not, it
equals only itself, and it contains no key. But a path with a point in it asks for a member, and so
do the macros, and there a map and an object with the same members cannot be told apart:

> `evaluate_eq_of_interchangeable`: if no path of a rule ends at a value that is a map in one context
> and an object with the same members in the other, the rule has the same value in both, or the same
> fault.
-/

namespace AccessRules

/-- A map and an object with the same members, in either order. -/
inductive Value.SameMembers : Value → Value → Prop
  | mapObject {entries : List (String × Value)} {identity : Nat}
      {attributes : String → Option Value} :
      (∀ name, attributes name = Dict.find? entries name) →
        SameMembers (.map entries) (.object identity attributes)
  | objectMap {entries : List (String × Value)} {identity : Nat}
      {attributes : String → Option Value} :
      (∀ name, attributes name = Dict.find? entries name) →
        SameMembers (.object identity attributes) (.map entries)

/-- Values with the same members give the same value for every name, also where they are no
container. -/
theorem Value.SameMembers.member_eq {v w : Value} (h : v.SameMembers w) (name : String) :
    v.member name = w.member name := by
  cases h with
  | mapObject hsame => rw [member, member, hsame]
  | objectMap hsame => rw [member, member, hsame]

namespace Rule

namespace Context

/-! ## Contexts that differ in how they hold members -/

/-- The part of a path before its first point. -/
def firstPart (path : String) : String :=
  String.ofList (path.toList.takeWhile (· ≠ '.'))

/-- Under the key there is a map in one context and an object with the same members in the other. -/
def Swapped (context context' : Context) (key : String) : Prop :=
  ∃ v w, context.get? key = some v ∧ context'.get? key = some w ∧ v.SameMembers w

/-- Contexts that are equal except that some keys are swapped. -/
def Interchangeable (context context' : Context) : Prop :=
  ∀ key, context.get? key = context'.get? key ∨ context.Swapped context' key

/-- The parts of a path are the one before the first point and, if there is a point, others. -/
theorem segments_eq_cons : (cs : List Char) →
    ∃ parts, segments cs = cs.takeWhile (· ≠ '.') :: parts ∧ ('.' ∈ cs → parts ≠ [])
  | [] => ⟨[], rfl, nofun⟩
  | c :: cs => by
    by_cases hc : c = '.'
    · refine ⟨segments cs, ?_, ?_⟩
      · rw [segments, if_pos hc, List.takeWhile_cons_of_neg (by simpa using hc)]
      · obtain ⟨parts, hparts, -⟩ := segments_eq_cons cs
        rw [hparts]
        exact fun _ => List.cons_ne_nil _ _
    · obtain ⟨parts, hparts, hmore⟩ := segments_eq_cons cs
      refine ⟨parts, ?_, ?_⟩
      · rw [segments, if_neg hc, hparts, List.takeWhile_cons_of_pos (by simpa using hc)]
      · intro hmem
        rcases List.mem_cons.mp hmem with rfl | hmem
        · exact absurd rfl hc
        · exact hmore hmem

/-- A path leads from the value under its first part through members, at least one of them if there
is a point in it. -/
theorem exists_resolve_eq (path : String) : ∃ names, ('.' ∈ path.toList → names ≠ []) ∧
    ∀ context : Context, context.resolve path =
      ((context.get? (firstPart path)).map fun value => follow value names).getD .null := by
  obtain ⟨parts, hparts, hmore⟩ := segments_eq_cons path.toList
  refine ⟨parts.map String.ofList, fun h => mt List.map_eq_nil_iff.mp (hmore h), ?_⟩
  intro context
  have hpath : names path = firstPart path :: parts.map String.ofList := by
    rw [names, hparts, List.map_cons, firstPart]
  rw [resolve_of_names hpath]
  cases context.get? (firstPart path) with
  | none => exact follow_null _
  | some value => rfl

variable {context context' : Context}

/-- A path leads to the same value unless it ends at a key that is swapped. -/
theorem resolve_eq_of_interchangeable (h : context.Interchangeable context') {path : String}
    (hpath : context.Swapped context' (firstPart path) → '.' ∈ path.toList) :
    context.resolve path = context'.resolve path := by
  obtain ⟨names, hnames, hresolve⟩ := exists_resolve_eq path
  rw [hresolve, hresolve]
  rcases h (firstPart path) with hsame | hswapped
  · rw [hsame]
  · have hne := hnames (hpath hswapped)
    obtain ⟨v, w, hv, hw, hmembers⟩ := hswapped
    rw [hv, hw, Option.map_some, Option.map_some]
    cases names with
    | nil => exact absurd rfl hne
    | cons name names => rw [follow_cons, follow_cons, hmembers.member_eq]

/-- A member of the value under a key is the same whether or not the key is swapped. -/
theorem member_resolve_eq_of_interchangeable (h : context.Interchangeable context') (key : String)
    (hkey : segments key.toList = [key.toList]) (name : String) :
    (context.resolve key).member name = (context'.resolve key).member name := by
  have hname : names key = [key] := by
    rw [names, hkey, List.map_singleton, String.ofList_toList]
  rw [resolve_of_names hname, resolve_of_names hname]
  rcases h key with hsame | ⟨v, w, hv, hw, hmembers⟩
  · rw [hsame]
  · rw [hv, hw]
    exact hmembers.member_eq name

end Context

variable {context context' : Context} {hour : Hour}

/-- Every function answers alike: what a macro looks up is a member, however the user, the record and
the permissions are held. -/
theorem Function.apply_eq_of_interchangeable (h : context.Interchangeable context') (f : Function)
    (args : List Value) : f.apply context hour args = f.apply context' hour args := by
  have hid : context.resolve "user.id" = context'.resolve "user.id" :=
    Context.resolve_eq_of_interchangeable h fun _ => by decide
  have hrole : context.resolve "user.role" = context'.resolve "user.role" :=
    Context.resolve_eq_of_interchangeable h fun _ => by decide
  have hgroups : context.resolve "user.groups" = context'.resolve "user.groups" :=
    Context.resolve_eq_of_interchangeable h fun _ => by decide
  have howner : context.resolve "record.owner_id" = context'.resolve "record.owner_id" :=
    Context.resolve_eq_of_interchangeable h fun _ => by decide
  -- The permissions as a whole may differ, so it is the lookup of the collection that is compared.
  have hpermissions := Context.member_resolve_eq_of_interchangeable h "permissions" (by decide)
  unfold apply
  simp only [hid, hrole, hgroups, howner, hpermissions]

/-- **Maps and objects are interchangeable behind member access.** In two contexts that are equal
except that some keys hold a map in one and an object with the same members in the other, a rule has
the same value or the same fault, at every hour, if each of its paths that starts with such a key goes
on behind it. -/
theorem Expr.evaluate_eq_of_interchangeable (h : context.Interchangeable context') {e : Expr}
    (hpaths : ∀ path ∈ e.paths,
      context.Swapped context' (Context.firstPart path) → '.' ∈ path.toList) (hour : Hour) :
    e.evaluate context hour = e.evaluate context' hour :=
  evaluate_eq_of_apply_eq (Function.apply_eq_of_interchangeable h) e fun path hpath =>
    Context.resolve_eq_of_interchangeable h (hpaths path hpath)

/-- A rule with four macros and two paths, for a user that is a map in one context and an object in
the other, while the permissions are an object in the first and a map in the second. -/
theorem Expr.evaluate_eq_of_interchangeable_editor :
    let user : Dict Value :=
      [("groups", .list [.string "staff"]), ("id", .string "u1"), ("role", .string "editor")]
    let posts : Value := .list [.string "read"]
    let record : Value := .map [("owner_id", .string "u1")]
    let context : Context := ⟨[
      ("permissions", .object 1 fun name => if name = "posts" then some posts else none),
      ("record", record), ("user", .map user)]⟩
    let context' : Context := ⟨[
      ("permissions", .map [("posts", posts)]),
      ("record", record), ("user", .object 2 (Dict.find? user))]⟩
    let e : Expr := .connective .and
      (.connective .and (.call "@has_role" [.literal (.string "editor")]) (.call "@owns_record" []))
      (.connective .and
        (.connective .and (.call "@has_group" [.literal (.string "staff")])
          (.call "@has_permission" [.literal (.string "read"), .literal (.string "posts")]))
        (.comparison .eq (.path "user.id") (.path "record.owner_id")))
    context.Interchangeable context' ∧
      (∀ path ∈ e.paths, context.Swapped context' (Context.firstPart path) → '.' ∈ path.toList) ∧
      context.resolve "user" ≠ context'.resolve "user" ∧
      e.evaluate context 0 = .ok (.bool true) ∧
      e.evaluate context 0 = e.evaluate context' 0 := by
  intro user posts record context context' e
  have hcontexts : context.Interchangeable context' := by
    intro key
    by_cases hpermissions : key = "permissions"
    · subst hpermissions
      exact .inr ⟨_, _, rfl, rfl, .objectMap fun _ => rfl⟩
    by_cases huser : key = "user"
    · subst huser
      exact .inr ⟨_, _, rfl, rfl, .mapObject fun _ => rfl⟩
    · refine .inl ?_
      simp only [Context.get?, context, context', Dict.find?, if_neg hpermissions, if_neg huser]
  have hpaths : ∀ path ∈ e.paths,
      context.Swapped context' (Context.firstPart path) → '.' ∈ path.toList := by
    have hpoints : ∀ path ∈ e.paths, '.' ∈ path.toList := by decide
    exact fun path hpath _ => hpoints path hpath
  have huser : context.resolve "user" ≠ context'.resolve "user" := by
    intro h
    cases h
  exact ⟨hcontexts, hpaths, huser, rfl, evaluate_eq_of_interchangeable hcontexts hpaths 0⟩

end Rule

end AccessRules
