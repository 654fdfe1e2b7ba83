import AccessRules.Proofs.Sql.Lexis
import AccessRules.Proofs.Sql.Parameters

/-!
# Conditions as rows

Connectives and what is negated are written in parentheses, comparisons and memberships are not. So
the text of a condition is a row: a first part, and behind it signs of comparison with another part
each, and lists behind `IN`. The parts themselves can be told apart, and the text gives back the
row, but it does not say how the row was grouped.

A condition is `Grouped` when every row in it has only one grouping: before a sign of comparison
stands a part with lists behind it, and after the sign a single part.

> `Grouped.decodes`: a grouped condition can be told from its tokens.
> `eq_of_text_eq`: the text of a grouped condition belongs to no other condition.

Columns may have the names of keywords here. `NOT` as a column is told from a negation by the
parenthesis that opens behind the latter, and `AND`, `OR` and `IN` by where they stand.
-/

namespace AccessRules.Sql

open Rule

/-! ## Rows -/

/-- What stands behind the first part of a row. -/
inductive Link
  | compared (op : Comparison) (part : Condition)
  | oneOf (numbers : List Nat)

/-- The tokens of a link. -/
def Link.tokens : Link → List Token
  | .compared op part => signToken op :: part.tokens
  | .oneOf numbers => .word "IN" :: .leftParen :: itemTokens numbers ++ [.rightParen]

namespace Condition

/-- The first part of a condition. -/
def head : Condition → Condition
  | .comparison _ left _ => left.head
  | .oneOf c _ => c.head
  | c => c

/-- What stands behind the first part. -/
def links : Condition → List Link
  | .comparison op left right => left.links ++ .compared op right.head :: right.links
  | .oneOf c numbers => c.links ++ [.oneOf numbers]
  | _ => []

/-- A condition whose row is a single part. -/
def IsPart : Condition → Prop
  | .comparison .. => False
  | .oneOf .. => False
  | _ => True

/-- A part with any number of lists behind it. -/
inductive Closed : Condition → Prop
  | part {c : Condition} : c.IsPart → Closed c
  | oneOf {c : Condition} (numbers : List Nat) : Closed c → Closed (.oneOf c numbers)

/-- A condition in which every row has only one grouping. -/
inductive Grouped : Condition → Prop
  | column (name : String) : Grouped (.column name)
  | parameter (p : Parameter) : Grouped (.parameter p)
  | never : Grouped .never
  | not {c : Condition} : Grouped c → Grouped (.not c)
  | connective {left right : Condition} (op : Connective) : Grouped left → Grouped right →
      Grouped (.connective op left right)
  | comparison {left right : Condition} (op : Comparison) : Closed left → right.IsPart →
      Grouped left → Grouped right → Grouped (.comparison op left right)
  | oneOf {c : Condition} (numbers : List Nat) : Closed c → Grouped c → Grouped (.oneOf c numbers)

/-- A condition as it comes from a rule without calls. -/
def CallFree : Condition → Prop
  | .not c => c.CallFree
  | .connective _ left right => left.CallFree ∧ right.CallFree
  | .comparison op left right => op ≠ .member ∧ left.CallFree ∧ right.CallFree
  | .oneOf c _ => c.CallFree
  | .like .. => False
  | _ => True

/-- A condition is a single part, a comparison or a lookup in a list. -/
theorem isPart_or_exists (c : Condition) : c.IsPart ∨
    (∃ op left right, c = .comparison op left right) ∨ ∃ d numbers, c = .oneOf d numbers := by
  cases c with
  | comparison op left right => exact Or.inr (Or.inl ⟨op, left, right, rfl⟩)
  | oneOf d numbers => exact Or.inr (Or.inr ⟨d, numbers, rfl⟩)
  | _ => exact Or.inl trivial

/-- A single part is the head of its own row. -/
theorem IsPart.head_eq {c : Condition} (h : c.IsPart) : c.head = c := by
  cases c with
  | comparison _ _ _ => cases h
  | oneOf _ _ => cases h
  | _ => rfl

theorem IsPart.links_eq {c : Condition} (h : c.IsPart) : c.links = [] := by
  cases c with
  | comparison _ _ _ => cases h
  | oneOf _ _ => cases h
  | _ => rfl

theorem isPart_of_links_eq_nil {c : Condition} (h : c.links = []) : c.IsPart := by
  rcases c.isPart_or_exists with hpart | ⟨op, left, right, rfl⟩ | ⟨d, numbers, rfl⟩
  · exact hpart
  · simp [links] at h
  · simp [links] at h

/-- The tokens of a condition are those of its row. -/
theorem tokens_eq_row : (c : Condition) → c.tokens = c.head.tokens ++ c.links.flatMap Link.tokens
  | .comparison op left right => by
    have hleft := tokens_eq_row left
    have hright := tokens_eq_row right
    rw [tokens, head, links, List.flatMap_append, List.flatMap_cons, Link.tokens, hleft, hright]
    simp
  | .oneOf c numbers => by
    have hc := tokens_eq_row c
    rw [tokens, head, links, List.flatMap_append, List.flatMap_singleton, Link.tokens, hc]
    simp
  | .column _ => (List.append_nil _).symm
  | .parameter _ => (List.append_nil _).symm
  | .not _ => (List.append_nil _).symm
  | .connective .. => (List.append_nil _).symm
  | .never => (List.append_nil _).symm
  | .like .. => (List.append_nil _).symm

/-- Every row begins with a single part. -/
theorem isPart_head (c : Condition) : c.head.IsPart := by
  induction c with
  | comparison _ _ _ ihl _ => exact ihl
  | oneOf _ _ ih => exact ih
  | _ => trivial

theorem callFree_head {c : Condition} (h : c.CallFree) : c.head.CallFree := by
  induction c with
  | comparison _ _ _ ihl _ => exact ihl h.2.1
  | oneOf _ _ ih => exact ih h
  | _ => exact h

/-- The parts behind signs of comparison are single parts. -/
theorem part_of_mem_links {op : Comparison} {part c : Condition} (h : c.CallFree)
    (hmem : .compared op part ∈ c.links) : op ≠ .member ∧ part.IsPart ∧ part.CallFree := by
  induction c with
  | comparison op' left right ihl ihr =>
    rw [links, List.mem_append, List.mem_cons] at hmem
    rcases hmem with hmem | heq | hmem
    · exact ihl h.2.1 hmem
    · cases heq
      exact ⟨h.1, right.isPart_head, callFree_head h.2.2⟩
    · exact ihr h.2.2 hmem
  | oneOf c numbers ih =>
    rw [links, List.mem_append, List.mem_singleton] at hmem
    rcases hmem with hmem | heq
    · exact ih h hmem
    · cases heq
  | _ => cases hmem

/-- A closed condition has only lists behind its first part. -/
theorem Closed.not_compared_mem {op : Comparison} {part c : Condition} (h : c.Closed) :
    .compared op part ∉ c.links := by
  induction h with
  | part hpart =>
    rw [hpart.links_eq]
    exact List.not_mem_nil
  | oneOf numbers _ ih =>
    rw [links, List.mem_append, List.mem_singleton, not_or]
    exact ⟨ih, nofun⟩

/-! ## Rows with one grouping -/

/-- A row of a part with lists behind it has no other grouping. -/
theorem Closed.eq_of_row_eq {c d : Condition} (h : c.Closed) (hhead : d.head = c.head)
    (hlinks : d.links = c.links) : d = c := by
  induction h generalizing d with
  | part hpart =>
    rw [hpart.links_eq] at hlinks
    rw [hpart.head_eq, (isPart_of_links_eq_nil hlinks).head_eq] at hhead
    exact hhead
  | @oneOf c numbers hclosed ih =>
    rcases d.isPart_or_exists with hpart | ⟨op, left, right, rfl⟩ | ⟨d, numbers', rfl⟩
    · rw [hpart.links_eq, links] at hlinks
      exact absurd hlinks.symm (List.append_ne_nil_of_right_ne_nil _ (List.cons_ne_nil _ _))
    · -- a comparison would leave its sign among the links
      have hmem : .compared op right.head ∈ (Condition.oneOf c numbers).links := by
        rw [← hlinks, links]
        exact List.mem_append_right _ (List.mem_cons_self ..)
      exact absurd hmem (Closed.oneOf numbers hclosed).not_compared_mem
    · rw [links, links] at hlinks
      -- The last link is the last list, and the links before it belong to the condition in front of
      -- it.
      obtain ⟨hinit, hlast⟩ := List.append_inj' hlinks rfl
      cases hlast
      have hhead : d.head = c.head := hhead
      rw [ih hhead hinit]

/-- A row with one comparison, which is the last link, has no other grouping. -/
theorem comparison_eq_of_row_eq {op : Comparison} {left right d : Condition} (hleft : left.Closed)
    (hright : right.IsPart) (hhead : d.head = left.head)
    (hlinks : d.links = left.links ++ [.compared op right]) : d = .comparison op left right := by
  rcases d.isPart_or_exists with hpart | ⟨op', left', right', rfl⟩ | ⟨d, numbers, rfl⟩
  · rw [hpart.links_eq] at hlinks
    exact absurd hlinks.symm (List.append_ne_nil_of_right_ne_nil _ (List.cons_ne_nil _ _))
  · rw [links] at hlinks
    rcases List.eq_nil_or_concat right'.links with hnil | ⟨init, last, hconcat⟩
    · rw [hnil] at hlinks
      obtain ⟨hinit, hlast⟩ := List.append_inj' hlinks rfl
      cases hlast
      have hhead : left'.head = left.head := hhead
      rw [hleft.eq_of_row_eq hhead hinit, (isPart_of_links_eq_nil hnil).head_eq]
    · -- then the sign of the comparison would stand among the links of the left side
      rw [hconcat, List.concat_eq_append, ← List.cons_append, ← List.append_assoc] at hlinks
      obtain ⟨hinit, -⟩ := List.append_inj' hlinks rfl
      have hmem : .compared op' right'.head ∈ left.links := by
        rw [← hinit]
        exact List.mem_append_right _ (List.mem_cons_self ..)
      exact absurd hmem hleft.not_compared_mem
  · rw [links] at hlinks
    obtain ⟨-, hlast⟩ := List.append_inj' hlinks rfl
    cases hlast

end Condition

/-! ## Reading a row back -/

theorem signToken_eq {op : Comparison} (h : op ≠ .member) : signToken op = .sign op := by
  cases op with
  | member => exact absurd rfl h
  | _ => rfl

/-- What may stand behind a whole condition: nothing that could go on with its row. -/
def EndsRow (rest : List Token) : Prop :=
  ∀ t ∈ rest.head?, t ≠ .leftParen ∧ t ≠ .word "IN" ∧ ∀ op, t ≠ .sign op

/-- A closing parenthesis ends a row. -/
theorem endsRow_rightParen (rest : List Token) : EndsRow (.rightParen :: rest) := by
  intro t ht
  cases ht
  exact ⟨nofun, nofun, fun _ => nofun⟩

theorem endsRow_connective (op : Connective) (rest : List Token) :
    EndsRow (.word (connectiveWord op) :: rest) := by
  intro t ht
  cases ht
  refine ⟨nofun, ?_, fun _ => nofun⟩
  cases op <;> decide

/-- Links of which none is a list with the sign of a comparison. -/
def Signs (links : List Link) : Prop :=
  ∀ op part, .compared op part ∈ links → op ≠ .member

/-- Links begin with a sign of comparison or with `IN`. -/
theorem head?_links_append {l : Link} {links : List Link} (h : Signs (l :: links))
    (rest : List Token) :
    ((l :: links).flatMap Link.tokens ++ rest).head? = some (.word "IN") ∨
      ∃ op, ((l :: links).flatMap Link.tokens ++ rest).head? = some (.sign op) := by
  cases l with
  | compared op part =>
    refine Or.inr ⟨op, ?_⟩
    have hsign := signToken_eq (h op part (List.mem_cons_self ..))
    rw [List.flatMap_cons, Link.tokens, hsign]
    rfl
  | oneOf numbers => exact Or.inl rfl

/-- No row ends in front of more links. -/
theorem not_endsRow_links {l : Link} {links : List Link} (h : Signs (l :: links))
    (rest : List Token) : ¬EndsRow ((l :: links).flatMap Link.tokens ++ rest) := by
  intro hends
  rcases head?_links_append h rest with hhead | ⟨op, hhead⟩
  · exact (hends _ hhead).2.1 rfl
  · exact (hends _ hhead).2.2 op rfl

/-- Behind a part no parenthesis opens. -/
theorem head?_row_ne_leftParen {links : List Link} (h : Signs links) {rest : List Token}
    (hrest : EndsRow rest) : (links.flatMap Link.tokens ++ rest).head? ≠ some .leftParen := by
  intro hhead
  cases links with
  | nil => exact (hrest _ hhead).1 rfl
  | cons l links =>
    rcases head?_links_append h rest with hhead' | ⟨op, hhead'⟩
    · rw [hhead'] at hhead
      cases hhead
    · rw [hhead'] at hhead
      cases hhead

/-- The numbers of a list can be read back. -/
theorem itemTokens_injective : {ns ms : List Nat} → {rest rest' : List Token} →
    itemTokens ns ++ .rightParen :: rest = itemTokens ms ++ .rightParen :: rest' →
    ns = ms ∧ rest = rest'
  | [], [], _, _, h => by simpa [itemTokens] using h
  | [], [m], _, _, h => by simp [itemTokens] at h
  | [], m :: m' :: ms, _, _, h => by simp [itemTokens] at h
  | [n], [], _, _, h => by simp [itemTokens] at h
  | [n], [m], _, _, h => by
    simp only [itemTokens, List.singleton_append, List.cons.injEq, Token.placeholder.injEq,
      true_and] at h
    have hname := Parameter.name_injective h.1
    cases hname
    exact ⟨rfl, h.2⟩
  | [n], m :: m' :: ms, _, _, h => by simp [itemTokens] at h
  | n :: n' :: ns, [], _, _, h => by simp [itemTokens] at h
  | n :: n' :: ns, [m], _, _, h => by simp [itemTokens] at h
  | n :: n' :: ns, m :: m' :: ms, _, _, h => by
    simp only [itemTokens, List.cons_append, List.cons.injEq, Token.placeholder.injEq,
      true_and] at h
    have hname := Parameter.name_injective h.1
    obtain ⟨hrest, htail⟩ := itemTokens_injective h.2
    cases hname
    rw [hrest]
    exact ⟨rfl, htail⟩

/-- The part can be told from its tokens, whatever part they may be taken for. -/
def PartDecodes (part : Condition) : Prop :=
  ∀ ⦃other : Condition⦄ ⦃rest rest' : List Token⦄, other.IsPart → other.CallFree →
    rest.head? ≠ some .leftParen → rest'.head? ≠ some .leftParen →
    part.tokens ++ rest = other.tokens ++ rest' → other = part ∧ rest' = rest

/-- The condition can be told from its tokens. -/
def Decodes (c : Condition) : Prop :=
  ∀ ⦃d : Condition⦄ ⦃rest rest' : List Token⦄, d.CallFree → EndsRow rest → EndsRow rest' →
    c.tokens ++ rest = d.tokens ++ rest' → d = c ∧ rest' = rest

/-- A link can be told from its tokens if its part can. -/
theorem Link.decodes {l other : Link} {rest rest' : List Token}
    (hl : ∀ op part, l = .compared op part → op ≠ .member ∧ PartDecodes part)
    (hother : ∀ op part, other = .compared op part →
      op ≠ .member ∧ part.IsPart ∧ part.CallFree)
    (hrest : rest.head? ≠ some .leftParen) (hrest' : rest'.head? ≠ some .leftParen)
    (h : l.tokens ++ rest = other.tokens ++ rest') : other = l ∧ rest' = rest := by
  cases l with
  | compared op part =>
    obtain ⟨hop, hpart⟩ := hl op part rfl
    cases other with
    | compared op' part' =>
      obtain ⟨hop', hpart', hfree'⟩ := hother op' part' rfl
      rw [tokens, tokens, signToken_eq hop, signToken_eq hop', List.cons_append,
        List.cons_append, List.cons.injEq, Token.sign.injEq] at h
      obtain ⟨rfl, h⟩ := h
      -- The signs are the same, so it is for the part to tell where the link ends.
      obtain ⟨rfl, htail⟩ := hpart hpart' hfree' hrest hrest' h
      exact ⟨rfl, htail⟩
    | oneOf numbers' =>
      rw [tokens, tokens, signToken_eq hop] at h
      cases (List.cons.inj h).1
  | oneOf numbers =>
    cases other with
    | compared op' part' =>
      obtain ⟨hop', -⟩ := hother op' part' rfl
      rw [tokens, tokens, signToken_eq hop'] at h
      cases (List.cons.inj h).1
    | oneOf numbers' =>
      simp only [tokens, List.cons_append, List.append_assoc, List.cons.injEq, true_and,
        List.nil_append] at h
      obtain ⟨rfl, htail⟩ := itemTokens_injective h
      exact ⟨rfl, htail.symm⟩

/-- Links can be read back if their parts can. -/
theorem links_decode {links others : List Link} {rest rest' : List Token} (hsigns : Signs links)
    (hdecodes : ∀ op part, .compared op part ∈ links → PartDecodes part)
    (hothers : ∀ op part, .compared op part ∈ others →
      op ≠ .member ∧ part.IsPart ∧ part.CallFree)
    (hrest : EndsRow rest) (hrest' : EndsRow rest')
    (h : links.flatMap Link.tokens ++ rest = others.flatMap Link.tokens ++ rest') :
    others = links ∧ rest' = rest := by
  have hsigns' : Signs others := fun op part hmem => (hothers op part hmem).1
  induction links generalizing others with
  | nil =>
    cases others with
    | nil => exact ⟨rfl, h.symm⟩
    | cons l others =>
      -- what ends the one row would be a link of the other
      rw [List.flatMap_nil, List.nil_append] at h
      rw [h] at hrest
      exact absurd hrest (not_endsRow_links hsigns' rest')
  | cons l links ih =>
    cases others with
    | nil =>
      rw [List.flatMap_nil, List.nil_append] at h
      rw [← h] at hrest'
      exact absurd hrest' (not_endsRow_links hsigns rest)
    | cons l' others =>
      have hsignsTail : Signs links := fun op part hmem =>
        hsigns op part (List.mem_cons_of_mem _ hmem)
      have hsignsTail' : Signs others := fun op part hmem =>
        hsigns' op part (List.mem_cons_of_mem _ hmem)
      have hfirst : ∀ op part, l = .compared op part → op ≠ .member ∧ PartDecodes part := by
        intro op part heq
        subst heq
        exact ⟨hsigns op part (List.mem_cons_self ..), hdecodes op part (List.mem_cons_self ..)⟩
      have hfirst' : ∀ op part, l' = .compared op part →
          op ≠ .member ∧ part.IsPart ∧ part.CallFree := by
        intro op part heq
        subst heq
        exact hothers op part (List.mem_cons_self ..)
      rw [List.flatMap_cons, List.flatMap_cons, List.append_assoc, List.append_assoc] at h
      obtain ⟨rfl, htail⟩ := Link.decodes hfirst hfirst'
        (head?_row_ne_leftParen hsignsTail hrest) (head?_row_ne_leftParen hsignsTail' hrest') h
      obtain ⟨rfl, rfl⟩ := ih hsignsTail
        (fun op part hmem => hdecodes op part (List.mem_cons_of_mem _ hmem))
        (fun op part hmem => hothers op part (List.mem_cons_of_mem _ hmem)) htail.symm hsignsTail'
      exact ⟨rfl, rfl⟩

/-! ## Reading a condition back -/

/-- A column is read back; what is written like a negation is told apart by the parenthesis behind
it. -/
theorem partDecodes_column (name : String) : PartDecodes (.column name) := by
  intro other rest rest' hpart hfree hrest hrest' h
  cases other with
  | column name' =>
    obtain ⟨hname, htail⟩ := List.cons.inj h
    cases hname
    exact ⟨rfl, htail.symm⟩
  | not c =>
    -- a column may have the name NOT, but no parenthesis opens behind a column
    have htail : rest = .leftParen :: _ := (List.cons.inj h).2
    rw [htail] at hrest
    exact absurd rfl hrest
  | comparison op left right => cases hpart
  | oneOf c numbers => cases hpart
  | like pattern text part => cases hfree
  | _ => cases (List.cons.inj h).1

/-- A parameter is read back, for its name says which one it is. -/
theorem partDecodes_parameter (p : Parameter) : PartDecodes (.parameter p) := by
  intro other rest rest' hpart hfree hrest hrest' h
  cases other with
  | parameter q =>
    obtain ⟨hname, htail⟩ := List.cons.inj h
    have hname := Parameter.name_injective (Token.placeholder.inj hname)
    cases hname
    exact ⟨rfl, htail.symm⟩
  | comparison op left right => cases hpart
  | oneOf c numbers => cases hpart
  | like pattern text part => cases hfree
  | _ => cases (List.cons.inj h).1

theorem partDecodes_never : PartDecodes .never := by
  intro other rest rest' hpart hfree hrest hrest' h
  cases other with
  | never =>
    have htail := List.append_cancel_left h
    exact ⟨rfl, htail.symm⟩
  | comparison op left right => cases hpart
  | oneOf c numbers => cases hpart
  | like pattern text part => cases hfree
  | _ => cases (List.cons.inj h).1

/-- A negation is read back if its operand is, up to the parenthesis that closes it. -/
theorem partDecodes_not {c : Condition} (hc : Decodes c) : PartDecodes (.not c) := by
  intro other rest rest' hpart hfree hrest hrest' h
  cases other with
  | not d =>
    have hd : d.CallFree := hfree
    simp only [Condition.tokens, List.cons_append, List.append_assoc, List.cons.injEq, true_and,
      List.nil_append] at h
    obtain ⟨rfl, htail⟩ := hc hd (endsRow_rightParen rest) (endsRow_rightParen rest') h
    exact ⟨rfl, (List.cons.inj htail).2⟩
  | column name =>
    have htail : .leftParen :: _ = rest' := (List.cons.inj h).2
    rw [← htail] at hrest'
    exact absurd rfl hrest'
  | comparison op left right => cases hpart
  | oneOf d numbers => cases hpart
  | like pattern text part => cases hfree
  | _ => cases (List.cons.inj h).1

/-- A connective is read back if both sides are: its word ends the row of the left one and the
parenthesis that of the right one. -/
theorem partDecodes_connective {left right : Condition} (op : Connective) (hl : Decodes left)
    (hr : Decodes right) : PartDecodes (.connective op left right) := by
  intro other rest rest' hpart hfree hrest hrest' h
  cases other with
  | connective op' left' right' =>
    simp only [Condition.tokens, List.cons_append, List.append_assoc, List.cons.injEq, true_and,
      List.nil_append] at h
    obtain ⟨rfl, hmiddle⟩ := hl hfree.1 (endsRow_connective op _) (endsRow_connective op' _) h
    obtain ⟨hword, htail⟩ := List.cons.inj hmiddle
    have hop : op' = op := by
      cases op <;> cases op' <;> first | rfl | exact absurd hword (by decide)
    obtain ⟨rfl, hend⟩ := hr hfree.2 (endsRow_rightParen rest) (endsRow_rightParen rest')
      htail.symm
    rw [hop]
    exact ⟨rfl, (List.cons.inj hend).2⟩
  | comparison op' left' right' => cases hpart
  | oneOf d numbers => cases hpart
  | like pattern text part => cases hfree
  | _ => cases (List.cons.inj h).1

/-- A row is read back, whatever condition it is taken for. -/
theorem row_decodes {c d : Condition} {rest rest' : List Token} (hfree : c.CallFree)
    (hhead : PartDecodes c.head)
    (hparts : ∀ op part, .compared op part ∈ c.links → PartDecodes part)
    (hd : d.CallFree) (hrest : EndsRow rest) (hrest' : EndsRow rest')
    (h : c.tokens ++ rest = d.tokens ++ rest') :
    d.head = c.head ∧ d.links = c.links ∧ rest' = rest := by
  have hlinks : ∀ op part, .compared op part ∈ d.links → _ := fun op part hmem =>
    Condition.part_of_mem_links hd hmem
  have hsigns : Signs c.links := fun op part hmem => (Condition.part_of_mem_links hfree hmem).1
  have hsigns' : Signs d.links := fun op part hmem => (hlinks op part hmem).1
  rw [c.tokens_eq_row, d.tokens_eq_row, List.append_assoc, List.append_assoc] at h
  obtain ⟨heq, htail⟩ := hhead d.isPart_head (Condition.callFree_head hd)
    (head?_row_ne_leftParen hsigns hrest) (head?_row_ne_leftParen hsigns' hrest') h
  obtain ⟨hlinks, hend⟩ := links_decode hsigns hparts hlinks hrest hrest' htail.symm
  exact ⟨heq, hlinks, hend⟩

/-- A condition that is closed can be told from its tokens when its first part can. -/
theorem Condition.Closed.decodes {c : Condition} (hclosed : c.Closed) (hfree : c.CallFree)
    (hhead : PartDecodes c.head) : Decodes c := by
  intro d rest rest' hd hrest hrest' heq
  have hnone : ∀ op part, .compared op part ∈ c.links → PartDecodes part := by
    intro op part hmem
    exact absurd hmem hclosed.not_compared_mem
  obtain ⟨hhead', hlinks, hend⟩ := row_decodes hfree hhead hnone hd hrest hrest' heq
  exact ⟨hclosed.eq_of_row_eq hhead' hlinks, hend⟩

/-- A part that can be told from its tokens as a part can be told from them as a condition. -/
theorem PartDecodes.decodes {c : Condition} (hpart : c.IsPart) (hfree : c.CallFree)
    (h : PartDecodes c) : PartDecodes c.head ∧ Decodes c := by
  have hhead : PartDecodes c.head := by
    rw [hpart.head_eq]
    exact h
  exact ⟨hhead, (Condition.Closed.part hpart).decodes hfree hhead⟩

/-- A comparison of a closed condition with a part can be told from its tokens when their first
parts can. -/
theorem decodes_comparison {left right : Condition} {op : Comparison}
    (hfree : (Condition.comparison op left right).CallFree) (hclosed : left.Closed)
    (hright : right.IsPart) (hhead : PartDecodes left.head) (hpart : PartDecodes right) :
    Decodes (.comparison op left right) := by
  have hlinks : (Condition.comparison op left right).links =
      left.links ++ [.compared op right] := by
    rw [Condition.links, hright.head_eq, hright.links_eq]
  have hparts : ∀ op' part, .compared op' part ∈ (Condition.comparison op left right).links →
      PartDecodes part := by
    -- The closed side has no comparison among its links, so the part is the right side.
    intro op' part hmem
    rw [hlinks, List.mem_append, List.mem_singleton] at hmem
    rcases hmem with hmem | heq
    · exact absurd hmem hclosed.not_compared_mem
    · cases heq
      exact hpart
  intro d rest rest' hd hrest hrest' heq
  obtain ⟨hhead', hlinks', hend⟩ := row_decodes hfree hhead hparts hd hrest hrest' heq
  rw [hlinks] at hlinks'
  exact ⟨Condition.comparison_eq_of_row_eq hclosed hright hhead' hlinks', hend⟩

/-- **A grouped condition can be told from its tokens**, and so can the first part of its row. -/
theorem Condition.Grouped.decodes {c : Condition} (h : c.Grouped) (hfree : c.CallFree) :
    PartDecodes c.head ∧ Decodes c := by
  induction h with
  | column name => exact (partDecodes_column name).decodes trivial hfree
  | parameter p => exact (partDecodes_parameter p).decodes trivial hfree
  | never => exact partDecodes_never.decodes trivial hfree
  | not _ ih => exact (partDecodes_not (ih hfree).2).decodes trivial hfree
  | connective op _ _ ihl ihr =>
    exact (partDecodes_connective op (ihl hfree.1).2 (ihr hfree.2).2).decodes trivial hfree
  | comparison op hclosed hright _ _ ihl ihr =>
    have hhead := (ihl hfree.2.1).1
    have hpart := (ihr hfree.2.2).1
    rw [hright.head_eq] at hpart
    exact ⟨hhead, decodes_comparison hfree hclosed hright hhead hpart⟩
  | oneOf numbers hclosed _ ih =>
    have hhead := (ih hfree).1
    exact ⟨hhead, (Closed.oneOf numbers hclosed).decodes hfree hhead⟩

/-- **The text of a grouped condition belongs to no other condition.** -/
theorem eq_of_text_eq {c d : Condition} (hgrouped : c.Grouped) (hc : c.CallFree) (hd : d.CallFree)
    (hplain : c.Plain) (hplain' : d.Plain) (h : c.text = d.text) : d = c := by
  -- Both conditions are plain, so the one text is read as the tokens of each.
  have htokens : c.tokens = d.tokens := by
    have hlex := lex_text hplain
    rw [h, lex_text hplain'] at hlex
    exact (Option.some.inj hlex).symm
  have hends : EndsRow [] := by
    intro t ht
    cases ht
  have happend : c.tokens ++ [] = d.tokens ++ [] := by
    rw [htokens]
  exact ((hgrouped.decodes hc).2 hd hends hends happend).1

end AccessRules.Sql
