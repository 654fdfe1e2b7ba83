import AccessRules.Proofs.Sql.Steps

/-!
# The parameters of a filter

A filter hands over its parameters as a dictionary by name. Nothing is lost on the way:

> `name_injective`: no two parameters share a name.
> `Sound.find?_params`: in the bindings that compiling leaves, the name of a bound parameter leads
> to the value that it was bound to, however often it came up.

Behind the second one stands `Sound`: a field of the caller is only ever bound to what is known
about it, a field of the request body to null, and the constant with a number to the value that
came up under this number.
-/

namespace AccessRules.Sql

/-! ## Names -/

/-- Two numbers with the same digits are the same. -/
theorem toString_nat_injective {m n : Nat} (h : toString m = toString n) : m = n := by
  have hdigits := congrArg String.toList h
  rw [Nat.toString_eq_repr, Nat.toString_eq_repr, Nat.toList_repr, Nat.toList_repr] at hdigits
  rw [← Nat.ofDigitChars_ten_toDigits (n := m), hdigits, Nat.ofDigitChars_ten_toDigits]

/-- **No two parameters share a name.** -/
theorem Parameter.name_injective {p q : Parameter} (h : p.name = q.name) : p = q := by
  have hlist := congrArg String.toList h
  -- the words in front of the names of different sources differ at the first letter
  cases p <;> cases q <;>
    simp only [name, String.toList_append, List.append_cancel_left_eq] at hlist
  case constant.constant m n => rw [toString_nat_injective (String.toList_inj.mp hlist)]
  case auth.auth f g => rw [String.toList_inj.mp hlist]
  case data.data f g => rw [String.toList_inj.mp hlist]
  all_goals simp at hlist

/-! ## From bindings to the dictionary -/

namespace Bindings

variable {auth : Auth} {b b' : Bindings} {constants : List Value}

/-- The last value that was bound stands above those bound before it. -/
theorem params_cons (n m : Nat) (p : Parameter) (v : Value) (bound : List (Parameter × Value)) :
    params ⟨n, (p, v) :: bound⟩ = (params ⟨m, bound⟩).insert p.name v := by
  unfold params Dict.ofList
  rw [List.reverse_cons, List.map_append, List.foldl_append]
  rfl

/-- A name leads to the value that its parameter was last bound to. -/
theorem find?_params (b : Bindings) (key : String) :
    b.params.find? key = (b.bound.find? fun x => x.1.name = key).map Prod.snd := by
  obtain ⟨n, bound⟩ := b
  induction bound with
  | nil => rfl
  | cons x bound ih =>
    obtain ⟨p, v⟩ := x
    rw [params_cons n n, Dict.find?_insert, List.find?_cons]
    by_cases hkey : key = p.name
    · simp [hkey]
    · have hkey' : p.name ≠ key := fun h => hkey h.symm
      simp [hkey, hkey', ih]

/-! ## What every bound value comes from -/

/-- The value that a parameter stands for, given the constants that came up so far. -/
def source? (auth : Auth) (constants : List Value) : Parameter → Option Value
  | .constant n => constants[n]?
  | .auth field => some (auth.get field)
  | .data _ => some .null

/-- Every parameter is bound to what it stands for. -/
structure Sound (auth : Auth) (constants : List Value) (b : Bindings) : Prop where
  count : b.constants = constants.length
  source : ∀ x ∈ b.bound, source? auth constants x.1 = some x.2

namespace Sound

theorem empty : Sound auth [] .empty := by
  refine ⟨rfl, ?_⟩
  intro x hx
  cases hx

/-- Binding a parameter to what it stands for keeps everything right. -/
theorem bind (h : Sound auth constants b) {p : Parameter} {v : Value}
    (hsource : source? auth constants p = some v) : Sound auth constants (b.bind p v) := by
  refine ⟨h.count, ?_⟩
  intro x hx
  rcases List.mem_cons.mp hx with rfl | hx
  · exact hsource
  · exact h.source x hx

/-- A new constant is bound under the number that it is counted with, and moves none of the others.
-/
theorem bindConstant (h : Sound auth constants b) (value : Value) :
    Sound auth (constants ++ [value]) (b.bindConstant value) := by
  refine ⟨?_, ?_⟩
  · show b.constants + 1 = _
    rw [List.length_append, h.count, List.length_singleton]
  · intro x hx
    rcases List.mem_cons.mp hx with rfl | hx
    · show (constants ++ [value])[b.constants]? = some value
      -- The number of the new one is how many there were.
      rw [h.count, List.getElem?_concat_length]
    · -- the constants before keep their numbers
      have hsource := h.source x hx
      obtain ⟨p, v⟩ := x
      cases p with
      | constant n =>
        obtain ⟨hn, -⟩ := List.getElem?_eq_some_iff.mp hsource
        show (constants ++ [value])[n]? = some v
        rw [List.getElem?_append_left hn]
        exact hsource
      | auth field => exact hsource
      | data field => exact hsource

/-- The binds that compiling can make keep every parameter bound to what it stands for. -/
theorem grows (h : Sound auth constants b) (hgrows : Grows auth b b') :
    ∃ later, Sound auth (constants ++ later) b' := by
  induction hgrows with
  | refl => exact ⟨[], by rwa [List.append_nil]⟩
  | constant value _ ih =>
    obtain ⟨later, ih⟩ := ih
    refine ⟨later ++ [value], ?_⟩
    rw [← List.append_assoc]
    exact ih.bindConstant value
  | auth _ _ ih =>
    obtain ⟨later, ih⟩ := ih
    exact ⟨later, ih.bind rfl⟩
  | data _ _ ih =>
    obtain ⟨later, ih⟩ := ih
    exact ⟨later, ih.bind rfl⟩

/-- **The name of a bound parameter leads to what it was bound to.** -/
theorem find?_params (h : Sound auth constants b) {p : Parameter} {v : Value}
    (hmem : (p, v) ∈ b.bound) : b.params.find? p.name = some v := by
  rw [Bindings.find?_params]
  cases hfind : b.bound.find? fun x => x.1.name = p.name with
  | none =>
    have hnone := List.find?_eq_none.mp hfind (p, v) hmem
    exact absurd (decide_eq_true rfl) hnone
  | some x =>
    have hfound := List.find?_some hfind
    have hname : x.1.name = p.name := of_decide_eq_true hfound
    have hx := h.source x (List.mem_of_find?_eq_some hfind)
    rw [Parameter.name_injective hname, h.source _ hmem] at hx
    exact hx.symm

end Sound

/-- What compiling from nothing leaves. -/
theorem sound_of_compile {e : Rule.Expr} {c : Condition}
    (h : compile auth .empty e = .ok (c, b)) : ∃ constants, Sound auth constants b :=
  Sound.empty.grows (compile_grows e h)

end Bindings

/-- The value that a filter puts in for a placeholder; null if there is none. -/
def Filter.bound (filter : Filter) (name : String) : Value :=
  (filter.params.find? name).getD .null

/-- A rule that compiles has a filter, which puts in what compiling bound. -/
theorem exists_filter_of_compile {auth : Auth} {b : Bindings} {e : Rule.Expr} {c : Condition}
    (h : compile auth .empty e = .ok (c, b)) :
    ∃ filter, Filter.ofExpr auth e = .ok filter ∧ filter.sql = c.text ∧
      ∀ p v, (p, v) ∈ b.bound → filter.bound p.name = v := by
  refine ⟨⟨c.text, b.params⟩, by rw [Filter.ofExpr, h], rfl, ?_⟩
  intro p v hmem
  obtain ⟨constants, hsound⟩ := Bindings.sound_of_compile h
  show (b.params.find? p.name).getD .null = v
  rw [hsound.find?_params hmem, Option.getD_some]

end AccessRules.Sql
