import AccessRules.Proofs.Number.Whole
import AccessRules.Proofs.Value.Order

/-!
# Transitivity of equality and order

A whole number and a floating-point one are compared after the whole number has been rounded, two
whole numbers as they are. So two whole numbers that are rounded to one number both equal it without
being equal, and that is the only way in which equality and order fail to be transitive:

> `transitive_iff_keptApart`: on the values whose whole numbers come from a given stock, equality is
> transitive exactly if rounding keeps the numbers of the stock apart, and so is order. A whole number
> equals no other number than itself exactly if the format has it.

Up to `2 ^ 53` the format has every whole number, and rounding keeps apart what it has.
-/

namespace AccessRules

open Number

/-! ## The numbers in a value -/

namespace Value

mutual

/-- What holds of every whole number and of every floating-point number in a value, in lists and maps
too. What an object answers is no part of it. -/
def Numbers (whole : Int64 → Prop) (float : Binary64 → Prop) : Value → Prop
  | .int i => whole i
  | .float x => float x
  | .list items => ItemsNumbers whole float items
  | .map entries => EntriesNumbers whole float entries
  | _ => True

/-- What holds of every number in some items. -/
def ItemsNumbers (whole : Int64 → Prop) (float : Binary64 → Prop) : List Value → Prop
  | [] => True
  | item :: items => Numbers whole float item ∧ ItemsNumbers whole float items

/-- What holds of every number in some entries. -/
def EntriesNumbers (whole : Int64 → Prop) (float : Binary64 → Prop) :
    List (String × Value) → Prop
  | [] => True
  | (_, value) :: entries => Numbers whole float value ∧ EntriesNumbers whole float entries

end

/-- The values have an order, in which the second one does not come first. -/
def AtMost (a b : Value) : Prop :=
  ∃ o, a.compare? b = some o ∧ o ≠ .gt

end Value

/-- No two whole numbers of a stock are rounded to one number. -/
def KeptApart (whole : Int64 → Prop) : Prop :=
  ∀ i j, whole i → whole j →
    (Binary64.ofInt i.toInt).same (Binary64.ofInt j.toInt) = true → i = j

/-! ## Orders put together -/

/-- Two comparisons of which neither goes down, one behind the other. -/
theorem compare_eq_then {α : Type} [Ord α] [Std.TransOrd α] {a b c : α} {o p : Ordering}
    (hab : compare a b = o) (hbc : compare b c = p) (ho : o ≠ .gt) (hp : p ≠ .gt) :
    compare a c = o.then p := by
  cases o with
  | gt => exact absurd rfl ho
  | eq =>
    rw [Std.TransCmp.congr_left hab]
    exact hbc
  | lt =>
    refine Std.TransCmp.lt_of_lt_of_isLE hab ?_
    cases p with
    | gt => exact absurd rfl hp
    | eq => rw [hbc]; rfl
    | lt => rw [hbc]; rfl

namespace Number.Binary64

variable {x y z : Binary64} {o p : Ordering}

/-- Numbers are ordered as their places on the line are. -/
theorem compare?_eq_some_iff :
    x.compare? y = some o ↔ ∃ a b, x.scaled = some a ∧ y.scaled = some b ∧ compare a b = o := by
  unfold compare?
  cases x.scaled <;> cases y.scaled <;> simp

/-- Numbers are the same if neither is greater. -/
theorem same_iff : x.same y = true ↔ x.compare? y = some .eq := by
  rw [same, beq_iff_eq]

/-- Two steps up the line are a step up, and one of them is enough for it to be strict. -/
theorem compare?_trans (hxy : x.compare? y = some o) (hyz : y.compare? z = some p)
    (ho : o ≠ .gt) (hp : p ≠ .gt) : x.compare? z = some (o.then p) := by
  obtain ⟨a, b, ha, hb, hab⟩ := compare?_eq_some_iff.mp hxy
  obtain ⟨b', c, hb', hc, hbc⟩ := compare?_eq_some_iff.mp hyz
  rw [hb] at hb'
  cases hb'
  exact compare?_eq_some_iff.mpr ⟨a, c, ha, hc, compare_eq_then hab hbc ho hp⟩

/-- Whole numbers are ordered as the places that they are rounded to. -/
theorem compare?_ofInt (i j : Int) :
    (ofInt i).compare? (ofInt j) = some (compare (place i) (place j)) := by
  rw [compare?, scaled_ofInt, scaled_ofInt]

/-- Whole numbers are the same as floats if they are rounded to one place. -/
theorem same_ofInt_iff {i j : Int} : (ofInt i).same (ofInt j) = true ↔ place i = place j := by
  rw [same_iff, compare?_ofInt, Option.some_inj, Int.compare_eq_eq]

end Number.Binary64

/-! ## Whole numbers that rounding keeps apart -/

variable {whole : Int64 → Prop} {float : Binary64 → Prop}

/-- Where rounding keeps whole numbers apart, it keeps their order. -/
theorem KeptApart.compare_eq (h : KeptApart whole) {i j : Int64} (hi : whole i) (hj : whole j) :
    (Binary64.ofInt i.toInt).compare? (Binary64.ofInt j.toInt) =
      some (compare i.toInt j.toInt) := by
  rw [Binary64.compare?_ofInt]
  have hne : i ≠ j → Binary64.place i.toInt ≠ Binary64.place j.toInt :=
    fun hij hplace => hij (h i j hi hj (Binary64.same_ofInt_iff.mpr hplace))
  -- Rounding turns no order round; that it does not make different numbers equal is the hypothesis.
  rcases Int.lt_trichotomy i.toInt j.toInt with hlt | heq | hgt
  · have hij : i ≠ j := by
      rintro rfl
      exact Int.lt_irrefl _ hlt
    have hplace := Binary64.place_mono hlt.le
    rw [Int.compare_eq_lt.mpr hlt, Int.compare_eq_lt.mpr (lt_of_le_of_ne hplace (hne hij))]
  · rw [heq, Int.compare_eq_eq.mpr rfl, Int.compare_eq_eq.mpr rfl]
  · have hij : i ≠ j := by
      rintro rfl
      exact Int.lt_irrefl _ hgt
    have hplace := Binary64.place_mono hgt.le
    rw [Int.compare_eq_gt.mpr hgt, Int.compare_eq_gt.mpr (lt_of_le_of_ne hplace (hne hij).symm)]

/-- Rounding keeps apart what the format has. -/
theorem keptApart_of_denotes (h : ∀ i, whole i → ∃ x : Binary64, x.Denotes i.toInt) :
    KeptApart whole := by
  intro i j hi hj hsame
  obtain ⟨x, hx⟩ := h i hi
  obtain ⟨y, hy⟩ := h j hj
  have hplace := Binary64.same_ofInt_iff.mp hsame
  have hxi := (Binary64.denotes_ofInt hx).2
  have hyj := (Binary64.denotes_ofInt hy).2
  rw [Binary64.scaled_ofInt] at hxi hyj
  rw [Option.some.inj hxi, Option.some.inj hyj] at hplace
  have hone : (Magnitude.oneInUnits : Int) ≠ 0 := by
    exact_mod_cast Magnitude.oneInUnits_pos.ne'
  exact Int64.toInt_inj.mp (Int.eq_of_mul_eq_mul_right hone hplace)

namespace Value

/-! ## Numbers as values -/

section

variable {a b c : Value} {x y : Binary64} {o p : Ordering}

/-- A number can be compared with numbers only. -/
theorem exists_number?_of_compare? (hx : a.number? = some x) (h : a.compare? b = some o) :
    ∃ y, b.number? = some y := by
  cases a with
  | int i =>
    cases b with
    | int j => exact ⟨_, rfl⟩
    | float y => exact ⟨y, rfl⟩
    | _ => cases h
  | float x =>
    cases b with
    | int j => exact ⟨_, rfl⟩
    | float y => exact ⟨y, rfl⟩
    | _ => cases h
  | _ => cases hx

/-- A number equals what it has an order with and neither comes first. -/
theorem same_iff_of_number? (hx : a.number? = some x) :
    a.same b = true ↔ a.compare? b = some .eq := by
  cases a with
  | int i =>
    cases b with
    | int j =>
      rw [same_of_compare? (.int i) (.int j) rfl, beq_iff_eq, compare?, Option.some_inj]
    | float y => exact Binary64.same_iff
    | _ => exact ⟨nofun, nofun⟩
  | float x =>
    cases b with
    | int j => exact Binary64.same_iff
    | float y => exact Binary64.same_iff
    | _ => exact ⟨nofun, nofun⟩
  | _ => cases hx

/-- Where rounding keeps the whole numbers apart, values that are numbers are compared as the numbers
that they stand for. -/
theorem compare?_eq_of_number? (h : KeptApart whole) (ha : a.Numbers whole float)
    (hb : b.Numbers whole float) (hx : a.number? = some x) (hy : b.number? = some y) :
    a.compare? b = x.compare? y := by
  cases a with
  | int i =>
    cases hx
    cases b with
    | int j =>
      cases hy
      exact (h.compare_eq ha hb).symm
    | float y =>
      cases hy
      rfl
    | _ => cases hy
  | float x =>
    cases hx
    cases b with
    | int j =>
      cases hy
      rfl
    | float y =>
      cases hy
      rfl
    | _ => cases hy
  | _ => cases hx

/-- Two comparisons of numbers, one behind the other. -/
theorem compare?_trans_of_number? (h : KeptApart whole) (ha : a.Numbers whole float)
    (hb : b.Numbers whole float) (hc : c.Numbers whole float) (hx : a.number? = some x)
    (hab : a.compare? b = some o) (hbc : b.compare? c = some p) (ho : o ≠ .gt) (hp : p ≠ .gt) :
    a.compare? c = some (o.then p) := by
  obtain ⟨y, hy⟩ := exists_number?_of_compare? hx hab
  obtain ⟨z, hz⟩ := exists_number?_of_compare? hy hbc
  rw [compare?_eq_of_number? h ha hb hx hy] at hab
  rw [compare?_eq_of_number? h hb hc hy hz] at hbc
  rw [compare?_eq_of_number? h ha hc hx hz]
  exact Binary64.compare?_trans hab hbc ho hp

/-- Among numbers that are kept apart sameness is transitive, because it is a comparison that ends
in equality. -/
theorem same_trans_of_number? (h : KeptApart whole) (ha : a.Numbers whole float)
    (hb : b.Numbers whole float) (hc : c.Numbers whole float) (hx : a.number? = some x)
    (hab : a.same b = true) (hbc : b.same c = true) : a.same c = true := by
  -- For numbers to be the same is to be compared as equal.
  have hab := (same_iff_of_number? hx).mp hab
  obtain ⟨y, hy⟩ := exists_number?_of_compare? hx hab
  have hbc := (same_iff_of_number? hy).mp hbc
  exact (same_iff_of_number? hx).mpr
    (compare?_trans_of_number? h ha hb hc hx hab hbc (by decide) (by decide))

end

/-! ## Values -/

mutual

/-- **Order is transitive where rounding keeps the whole numbers apart**: two comparisons of which
neither goes down make one, which goes up if one of them does. -/
theorem compare?_trans (h : KeptApart whole) : (a b c : Value) → {o p : Ordering} →
    a.Numbers whole float → b.Numbers whole float → c.Numbers whole float →
    a.compare? b = some o → b.compare? c = some p → o ≠ .gt → p ≠ .gt →
    a.compare? c = some (o.then p)
  | .int i, b, c, o, p, ha, hb, hc, hab, hbc, ho, hp =>
    compare?_trans_of_number? h ha hb hc rfl hab hbc ho hp
  | .float x, b, c, o, p, ha, hb, hc, hab, hbc, ho, hp =>
    compare?_trans_of_number? h ha hb hc rfl hab hbc ho hp
  | .bool a, b, c, o, p, _, _, _, hab, hbc, ho, hp => by
    cases b with
    | bool b =>
      cases c with
      | bool c =>
        exact congrArg some (compare_eq_then (Option.some.inj hab) (Option.some.inj hbc) ho hp)
      | _ => cases hbc
    | _ => cases hab
  | .string s, b, c, o, p, _, _, _, hab, hbc, ho, hp => by
    cases b with
    | string t =>
      cases c with
      | string u =>
        exact congrArg some (compare_eq_then (Option.some.inj hab) (Option.some.inj hbc) ho hp)
      | _ => cases hbc
    | _ => cases hab
  | .list xs, b, c, o, p, ha, hb, hc, hab, hbc, ho, hp => by
    cases b with
    | list ys =>
      cases c with
      | list zs => exact compareItems?_trans h xs ys zs ha hb hc hab hbc ho hp
      | _ => cases hbc
    | _ => cases hab
  | .null, b, c, o, p, _, _, _, hab, _, _, _ => by cases b <;> cases hab
  | .map _, b, c, o, p, _, _, _, hab, _, _, _ => by cases b <;> cases hab
  | .object _ _, b, c, o, p, _, _, _, hab, _, _, _ => by cases b <;> cases hab

/-- The order of lists is transitive if that of their items is: where one of the two comparisons
comes to items that differ, the third one comes to them too. -/
theorem compareItems?_trans (h : KeptApart whole) : (xs ys zs : List Value) → {o p : Ordering} →
    ItemsNumbers whole float xs → ItemsNumbers whole float ys → ItemsNumbers whole float zs →
    compareItems? xs ys = some o → compareItems? ys zs = some p → o ≠ .gt → p ≠ .gt →
    compareItems? xs zs = some (o.then p)
  | [], ys, zs, o, p, _, _, _, hxy, hyz, _, hp => by
    cases ys with
    | nil =>
      cases hxy
      exact hyz
    | cons y ys =>
      cases hxy
      cases zs with
      | nil =>
        cases hyz
        exact absurd rfl hp
      | cons z zs => rfl
  | x :: xs, ys, zs, o, p, hx, hy, hz, hxy, hyz, ho, hp => by
    cases ys with
    | nil =>
      cases hxy
      exact absurd rfl ho
    | cons y ys =>
      cases zs with
      | nil =>
        cases hyz
        exact absurd rfl hp
      | cons z zs =>
        rw [compareItems?] at hxy hyz ⊢
        cases hq : x.compare? y with
        | none =>
          rw [hq] at hxy
          cases hxy
        | some q =>
          cases hr : y.compare? z with
          | none =>
            rw [hr] at hyz
            cases hyz
          | some r =>
            rw [hq] at hxy
            rw [hr] at hyz
            -- Neither of the first items goes down, or the lists would.
            have hq' : q ≠ .gt := by
              rintro rfl
              cases hxy
              exact ho rfl
            have hr' : r ≠ .gt := by
              rintro rfl
              cases hyz
              exact hp rfl
            rw [compare?_trans h x y z hx.1 hy.1 hz.1 hq hr hq' hr']
            cases q with
            | gt => exact absurd rfl hq'
            | lt =>
              cases hxy
              rfl
            | eq =>
              cases r with
              | gt => exact absurd rfl hr'
              | eq => exact compareItems?_trans h xs ys zs hx.2 hy.2 hz.2 hxy hyz ho hp
              | lt =>
                cases hyz
                cases o with
                | gt => exact absurd rfl ho
                | eq => rfl
                | lt => rfl

end

mutual

/-- **Equality is transitive where rounding keeps the whole numbers apart.** -/
theorem same_trans (h : KeptApart whole) : (a b c : Value) → a.Numbers whole float →
    b.Numbers whole float → c.Numbers whole float → a.same b = true → b.same c = true →
    a.same c = true
  -- Numbers are the same across types, so they are taken for what they stand for.
  | .int i, b, c, ha, hb, hc, hab, hbc => same_trans_of_number? h ha hb hc rfl hab hbc
  | .float x, b, c, ha, hb, hc, hab, hbc => same_trans_of_number? h ha hb hc rfl hab hbc
  | .null, b, c, _, _, _, hab, hbc => by
    cases b with
    | null => exact hbc
    | _ => cases hab
  | .bool a, b, c, _, _, _, hab, hbc => by
    cases b with
    | bool b =>
      rw [eq_of_beq hab]
      exact hbc
    | _ => cases hab
  | .string s, b, c, _, _, _, hab, hbc => by
    cases b with
    | string t =>
      rw [eq_of_beq hab]
      exact hbc
    | _ => cases hab
  | .object i attributes, b, c, _, _, _, hab, hbc => by
    cases b with
    | object j attributes' =>
      cases c with
      | object k attributes'' => exact beq_iff_eq.mpr ((eq_of_beq hab).trans (eq_of_beq hbc))
      | _ => cases hbc
    | _ => cases hab
  | .list xs, b, c, ha, hb, hc, hab, hbc => by
    cases b with
    | list ys =>
      cases c with
      | list zs => exact sameItems_trans h xs ys zs ha hb hc hab hbc
      | _ => cases hbc
    | _ => cases hab
  | .map xs, b, c, ha, hb, hc, hab, hbc => by
    cases b with
    | map ys =>
      cases c with
      | map zs => exact sameEntries_trans h xs ys zs ha hb hc hab hbc
      | _ => cases hbc
    | _ => cases hab

/-- Sameness of lists is transitive, item by item. -/
theorem sameItems_trans (h : KeptApart whole) : (xs ys zs : List Value) →
    ItemsNumbers whole float xs → ItemsNumbers whole float ys → ItemsNumbers whole float zs →
    sameItems xs ys = true → sameItems ys zs = true → sameItems xs zs = true
  | [], ys, zs, _, _, _, hxy, hyz => by
    cases ys with
    | nil => exact hyz
    | cons y ys => cases hxy
  | x :: xs, ys, zs, hx, hy, hz, hxy, hyz => by
    cases ys with
    | nil => cases hxy
    | cons y ys =>
      cases zs with
      | nil => cases hyz
      | cons z zs =>
        rw [sameItems, Bool.and_eq_true] at hxy hyz ⊢
        exact ⟨same_trans h x y z hx.1 hy.1 hz.1 hxy.1 hyz.1,
          sameItems_trans h xs ys zs hx.2 hy.2 hz.2 hxy.2 hyz.2⟩

/-- Sameness of maps is transitive, entry by entry. -/
theorem sameEntries_trans (h : KeptApart whole) : (xs ys zs : List (String × Value)) →
    EntriesNumbers whole float xs → EntriesNumbers whole float ys →
    EntriesNumbers whole float zs → sameEntries xs ys = true → sameEntries ys zs = true →
    sameEntries xs zs = true
  | [], ys, zs, _, _, _, hxy, hyz => by
    cases ys with
    | nil => exact hyz
    | cons y ys => cases hxy
  | (j, x) :: xs, ys, zs, hx, hy, hz, hxy, hyz => by
    cases ys with
    | nil => cases hxy
    | cons y ys =>
      cases zs with
      | nil => cases hyz
      | cons z zs =>
        obtain ⟨k, y⟩ := y
        obtain ⟨l, z⟩ := z
        rw [sameEntries, Bool.and_eq_true, Bool.and_eq_true] at hxy hyz ⊢
        obtain ⟨⟨hjk, hxy⟩, hrest⟩ := hxy
        obtain ⟨⟨hkl, hyz⟩, hrest'⟩ := hyz
        refine ⟨⟨?_, same_trans h x y z hx.1 hy.1 hz.1 hxy hyz⟩,
          sameEntries_trans h xs ys zs hx.2 hy.2 hz.2 hrest hrest'⟩
        rw [eq_of_beq hjk]
        exact hkl

end

/-- Being at most is transitive where rounding keeps the whole numbers apart. -/
theorem AtMost.trans (h : KeptApart whole) {a b c : Value} (ha : a.Numbers whole float)
    (hb : b.Numbers whole float) (hc : c.Numbers whole float) (hab : a.AtMost b)
    (hbc : b.AtMost c) : a.AtMost c := by
  obtain ⟨o, hab, ho⟩ := hab
  obtain ⟨p, hbc, hp⟩ := hbc
  refine ⟨o.then p, compare?_trans h a b c ha hb hc hab hbc ho hp, ?_⟩
  cases o with
  | gt => exact absurd rfl ho
  | eq => exact hp
  | lt => nofun

/-! ## Exactly then -/

/-- A whole number equals the number that it is rounded to. -/
theorem compare?_rounded (i : Int64) :
    (Value.int i).compare? (.float (.ofInt i.toInt)) = some .eq := by
  show (Binary64.ofInt i.toInt).compare? (.ofInt i.toInt) = some .eq
  rw [Binary64.compare?_ofInt, Int.compare_eq_eq.mpr rfl]

/-- A whole number is rounded to a number. -/
theorem ofInt_ne_nan (i : Int) : Binary64.ofInt i ≠ .nan := by
  intro h
  have hscaled := Binary64.scaled_ofInt i
  rw [h] at hscaled
  cases hscaled

/-- A 64-bit integer lies far below the first number that is too large. -/
theorem natAbs_toInt_lt (i : Int64) : i.toInt.natAbs < 2 ^ 1024 := by
  have hle := i.le_toInt
  have hlt := i.toInt_lt
  have hsmall : i.toInt.natAbs ≤ 2 ^ 63 := by omega
  exact hsmall.trans_lt (pow_lt_pow_right₀ (by decide) (by decide))

/-- A whole number equals only numbers that stand for it if the format has it, and what it is rounded
to is no such number otherwise. -/
theorem equals_only_denotes_iff (i : Int64) :
    (∀ x, (Value.int i).same (.float x) = true → x.Denotes i.toInt) ↔
      ∃ x : Binary64, x.Denotes i.toInt := by
  constructor
  · intro h
    exact ⟨_, h _ ((same_iff_of_number? rfl).mpr (compare?_rounded i))⟩
  · rintro ⟨y, hy⟩ x hsame
    obtain ⟨a, b, ha, hb, hab⟩ := Binary64.compare?_eq_some_iff.mp (Binary64.same_iff.mp hsame)
    rw [(Binary64.denotes_ofInt hy).2] at ha
    cases ha
    rw [← Int.compare_eq_eq.mp hab] at hb
    exact Binary64.denotes_of_scaled (natAbs_toInt_lt i) hb

/-- Two whole numbers of one rounding with a number between them: equality would not be transitive. -/
theorem keptApart_of_same_trans
    (h : ∀ a b c : Value, a.Numbers whole (· ≠ .nan) → b.Numbers whole (· ≠ .nan) →
      c.Numbers whole (· ≠ .nan) → a.same b = true → b.same c = true → a.same c = true) :
    KeptApart whole := by
  intro i j hi hj hround
  have hleft : (Value.int i).same (.float (.ofInt i.toInt)) = true :=
    (same_iff_of_number? rfl).mpr (compare?_rounded i)
  have hright : (Value.float (.ofInt i.toInt)).same (.int j) = true := hround
  exact eq_of_beq (h (.int i) (.float _) (.int j) hi (ofInt_ne_nan i.toInt) hj hleft hright)

/-- The greater of two whole numbers of one rounding is at most that number, which is at most the
smaller: order would not be transitive. -/
theorem keptApart_of_atMost_trans
    (h : ∀ a b c : Value, a.Numbers whole (· ≠ .nan) → b.Numbers whole (· ≠ .nan) →
      c.Numbers whole (· ≠ .nan) → a.AtMost b → b.AtMost c → a.AtMost c) :
    KeptApart whole := by
  have hle : ∀ {i j : Int64}, whole i → whole j →
      (Binary64.ofInt i.toInt).same (.ofInt j.toInt) = true → i.toInt ≤ j.toInt := by
    intro i j hi hj hround
    have hright : (Value.float (.ofInt i.toInt)).compare? (.int j) = some .eq :=
      Binary64.same_iff.mp hround
    obtain ⟨o, hij, ho⟩ := h (.int i) (.float _) (.int j) hi (ofInt_ne_nan i.toInt) hj
      ⟨_, compare?_rounded i, by decide⟩ ⟨_, hright, by decide⟩
    cases hij
    exact Int.not_lt.mp fun hlt => ho (Int.compare_eq_gt.mpr hlt)
  intro i j hi hj hround
  have hback := Binary64.same_ofInt_iff.mpr (Binary64.same_ofInt_iff.mp hround).symm
  exact Int64.toInt_inj.mp (Int.le_antisymm (hle hi hj hround) (hle hj hi hback))

/-- **Equality and order are transitive exactly where rounding keeps the whole numbers apart.** Take
the values without NaN whose whole numbers come from a stock: equality is transitive on them if and
only if no two numbers of the stock are rounded to one, and order if and only if the same holds. A
whole number equals only numbers that stand for it if and only if the format has it. Rounding keeps
apart what the format has, and up to `2 ^ 53` it has every whole number. -/
theorem transitive_iff_keptApart (whole : Int64 → Prop) :
    ((∀ a b c : Value, a.Numbers whole (· ≠ .nan) → b.Numbers whole (· ≠ .nan) →
        c.Numbers whole (· ≠ .nan) → a.same b = true → b.same c = true → a.same c = true) ↔
      KeptApart whole) ∧
    ((∀ a b c : Value, a.Numbers whole (· ≠ .nan) → b.Numbers whole (· ≠ .nan) →
        c.Numbers whole (· ≠ .nan) → a.AtMost b → b.AtMost c → a.AtMost c) ↔
      KeptApart whole) ∧
    (∀ i : Int64, (∀ x, (Value.int i).same (.float x) = true → x.Denotes i.toInt) ↔
      ∃ x : Binary64, x.Denotes i.toInt) ∧
    ((∀ i, whole i → ∃ x : Binary64, x.Denotes i.toInt) → KeptApart whole) ∧
    ∀ i : Int64, i.toInt.natAbs ≤ 2 ^ 53 → ∃ x : Binary64, x.Denotes i.toInt :=
  ⟨⟨keptApart_of_same_trans, fun h a b c => same_trans h a b c⟩,
    ⟨keptApart_of_atMost_trans, fun h _ _ _ => AtMost.trans h⟩,
    equals_only_denotes_iff,
    keptApart_of_denotes,
    fun _ hi => ⟨_, Binary64.denotes_of_natAbs_le hi⟩⟩

/-- All whole numbers up to `2 ^ 53` are such a stock. A list of some of them, with a negative zero
among them, equals the list in which the others are floating-point numbers, and that one equals the
list with the positive zero; so the lists with the two zeros are equal. A list that ends in a greater
number comes behind the second of them, and so behind the first. -/
theorem transitive_up_to_two_pow_53 :
    let a : Value := .list [.int 9007199254740992, .float (.finite true .zero), .int (-7)]
    let b : Value := .list [.float (.ofInt 9007199254740992), .int 0, .float (.ofInt (-7))]
    let c : Value := .list [.int 9007199254740992, .float (.finite false .zero), .int (-7)]
    let d : Value := .list [.int 9007199254740992, .int 0, .float (.ofInt 9007199254740991)]
    KeptApart (fun i => i.toInt.natAbs ≤ 2 ^ 53) ∧
      a.same b = true ∧ b.same c = true ∧ a.same c = true ∧
      a.AtMost b ∧ b.AtMost d ∧ a.AtMost d := by
  intro a b c d
  obtain ⟨hsame, hatMost, -, hkept, hsmall⟩ :=
    transitive_iff_keptApart fun i => i.toInt.natAbs ≤ 2 ^ 53
  have hapart : KeptApart (fun i => i.toInt.natAbs ≤ 2 ^ 53) := hkept hsmall
  have ha : a.Numbers (fun i => i.toInt.natAbs ≤ 2 ^ 53) (· ≠ .nan) := by
    simp only [a, Numbers, ItemsNumbers]
    exact ⟨by decide, nofun, by decide, trivial⟩
  have hb : b.Numbers (fun i => i.toInt.natAbs ≤ 2 ^ 53) (· ≠ .nan) := by
    simp only [b, Numbers, ItemsNumbers]
    exact ⟨ofInt_ne_nan _, by decide, ofInt_ne_nan _, trivial⟩
  have hc : c.Numbers (fun i => i.toInt.natAbs ≤ 2 ^ 53) (· ≠ .nan) := by
    simp only [c, Numbers, ItemsNumbers]
    exact ⟨by decide, nofun, by decide, trivial⟩
  have hd : d.Numbers (fun i => i.toInt.natAbs ≤ 2 ^ 53) (· ≠ .nan) := by
    simp only [d, Numbers, ItemsNumbers]
    exact ⟨by decide, by decide, ofInt_ne_nan _, trivial⟩
  have hab : a.same b = true := by decide +kernel
  have hbc : b.same c = true := by decide +kernel
  have hlow : a.AtMost b := ⟨.eq, by decide +kernel, nofun⟩
  have hhigh : b.AtMost d := ⟨.lt, by decide +kernel, nofun⟩
  exact ⟨hapart, hab, hbc, hsame.mpr hapart a b c ha hb hc hab hbc, hlow, hhigh,
    hatMost.mpr hapart a b d ha hb hd hlow hhigh⟩

/-- The first whole number that the format lacks: it equals its neighbour `2 ^ 53` written as a
floating-point number, which equals that neighbour written as a whole number, and the two whole
numbers differ. So do both laws fail. -/
theorem int_equals_rounded_neighbour :
    (Value.int 9007199254740993).same (.float (.ofInt 9007199254740992)) = true ∧
      (Value.float (.ofInt 9007199254740992)).same (.int 9007199254740992) = true ∧
      (Value.int 9007199254740993).same (.int 9007199254740992) = false ∧
      (Value.int 9007199254740993).compare? (.float (.ofInt 9007199254740992)) = some .eq ∧
      (Value.float (.ofInt 9007199254740992)).compare? (.int 9007199254740992) = some .eq ∧
      (Value.int 9007199254740993).compare? (.int 9007199254740992) = some .gt := by
  decide +kernel

end Value

end AccessRules
