import Mathlib.Tactic.SplitIfs
import AccessRules.Proofs.Json.Value

/-!
# Texts of values without numbers

A string is read back character by character: an escape gives the character it was written for, and
everything else stands for itself. The text of an array or object is that of its parts with signs
between them, so a value comes back from its text if its parts do:

> `readString_characters`: a string comes back, whatever stands in it.
> `readsBack_array`, `readsBack_object`: what holds of the parts holds of the whole.
> `NumberFree.read?_compact`: a value without numbers is read from its text as the document it is.
-/

namespace AccessRules.Json

/-! ## Strings -/

/-- The digits of an escape are read as the numbers they were written for. -/
theorem hexValue?_digitChar : ∀ n < 16, hexValue? (Nat.digitChar n) = some n := by
  decide

/-- Whether a character is written as the number of its unit. -/
def IsUnit (c : Char) : Prop :=
  c.toNat < 0x20 ∧ c ≠ '\n' ∧ c ≠ '\r' ∧ c ≠ '\t' ∧ c.toNat ≠ 0x08 ∧ c.toNat ≠ 0x0C

instance (c : Char) : Decidable (IsUnit c) :=
  inferInstanceAs (Decidable (_ ∧ _))

/-- The part that the text of a character is read as. -/
def writtenPart (c : Char) : StringPart :=
  if IsUnit c then .unit c.toNat else .char c

/-- However a character is written, it is read as one part. -/
theorem readParts_escapedChar (parts : List StringPart) (c : Char) (rest : List Char) :
    readParts parts (escapedChar c ++ rest) = readParts (writtenPart c :: parts) rest := by
  unfold escapedChar
  split_ifs with hquote hslash hnl hcr htab hback hfeed hcontrol
  · subst hquote; rfl
  · subst hslash; rfl
  · subst hnl; rfl
  · subst hcr; rfl
  · subst htab; rfl
  · have hc : c = Char.ofNat 0x08 := by rw [← hback, Char.ofNat_toNat]
    subst hc; rfl
  · have hc : c = Char.ofNat 0x0C := by rw [← hfeed, Char.ofNat_toNat]
    subst hc; rfl
  · -- The other control characters are written with the four digits of their unit.
    have hunit : IsUnit c := ⟨hcontrol, hnl, hcr, htab, hback, hfeed⟩
    have hhigh : hexValue? (hexDigit (c.toNat / 16)) = some (c.toNat / 16) := by
      rw [hexDigit, Nat.mod_eq_of_lt (by omega)]
      exact hexValue?_digitChar _ (by omega)
    have hlow : hexValue? (hexDigit c.toNat) = some (c.toNat % 16) :=
      hexValue?_digitChar _ (by omega)
    have hzero : hexValue? '0' = some 0 := rfl
    have hsum : 0x1000 * 0 + 0x100 * 0 + 0x10 * (c.toNat / 16) + c.toNat % 16 = c.toNat := by omega
    simp only [List.cons_append, List.nil_append, readParts, hzero, hhigh, hlow, hsum, writtenPart,
      if_pos hunit]
  · -- Every other character stands for itself; it is neither the quote nor the start of an escape.
    have hplain : ¬IsUnit c := fun h => hcontrol h.1
    rw [writtenPart, if_neg hplain, List.cons_append, List.nil_append, readParts]
    · simp [hcontrol, hslash]
    · simpa using hquote
    · intros; contradiction
    · simp [hslash]

/-- The part that a character was read as gives the character back; no half of a surrogate pair is
ever written. -/
theorem join_writtenPart (c : Char) (parts : List StringPart) :
    StringPart.join (writtenPart c :: parts) = (StringPart.join parts).map (c :: ·) := by
  rw [writtenPart]
  split_ifs with hunit
  · obtain ⟨hlt, -⟩ := hunit
    have hhigh : ¬0xD800 ≤ c.toNat := by omega
    have hlow : ¬0xDC00 ≤ c.toNat := by omega
    cases parts with
    | nil => simp [StringPart.join, hhigh]
    | cons part parts => cases part <;> simp [StringPart.join, hhigh, hlow]
  · rfl


/-- Characters are read up to the closing quote, whatever stands behind it. -/
theorem readParts_characters (parts : List StringPart) (cs rest : List Char) :
    readParts parts (cs.flatMap escapedChar ++ '"' :: rest) =
      some (parts.reverse ++ cs.map writtenPart, rest) := by
  induction cs generalizing parts with
  | nil => simp [readParts]
  | cons c cs ih =>
    rw [List.flatMap_cons, List.append_assoc, readParts_escapedChar, ih]
    simp

/-- The parts read from some characters are those characters. -/
theorem join_characters (cs : List Char) :
    StringPart.join (cs.map writtenPart) = some cs := by
  induction cs with
  | nil => rfl
  | cons c cs ih => rw [List.map_cons, join_writtenPart, ih, Option.map_some]

theorem toList_stringText (s : String) :
    (stringText s).toList = '"' :: (s.toList.flatMap escapedChar ++ ['"']) := by
  simp [stringText]

/-- A string comes back from its text, whatever stands in it. -/
theorem readString_characters (s : String) (rest : List Char) :
    readString (s.toList.flatMap escapedChar ++ '"' :: rest) = some (some s, rest) := by
  rw [readString, readParts_characters]
  simp [join_characters]

/-! ## Values -/

/-- The characters with which the text of a value begins that is no number. -/
def openers : List Char := ['n', 't', 'f', '"', '[', '\x7b']

/-- No value begins with white space, so none is dropped in front of it. -/
theorem skipSpace_opener {c : Char} (h : c ∈ openers) (cs : List Char) :
    skipSpace (c :: cs) = c :: cs := by
  simp only [openers, List.mem_cons, List.not_mem_nil, or_false] at h
  rcases h with rfl | rfl | rfl | rfl | rfl | rfl <;> rfl

/-- What begins as a value is read as the items of an array, not as its end. -/
theorem readValue_bracket {c : Char} (hc : c ∈ openers) {fuel : Nat} {cs rest : List Char}
    {items : List Document} (h : readItems fuel [] (c :: cs) = some (items, rest)) :
    readValue (fuel + 1) ('[' :: c :: cs) = some (.array items, rest) := by
  have hbracket : skipSpace ('[' :: c :: cs) = '[' :: c :: cs := skipSpace_opener (by decide) _
  have hopen : c ≠ ']' := by rintro rfl; exact absurd hc (by decide)
  rw [readValue, hbracket]
  simp [skipSpace_opener hc, hopen, h]

/-- A value comes back from its text, whatever follows, if twice the length of the text bounds the
calls; and the text begins as that of a value which is no number. -/
structure ReadsBack (j : Json) : Prop where
  opens : ∃ c ∈ openers, ∃ cs, j.compact.toList = c :: cs
  reads : ∀ (fuel : Nat) (rest : List Char), 2 * j.compact.toList.length ≤ fuel →
    readValue fuel (j.compact.toList ++ rest) = some (j.toDocument, rest)

/-- A text is not empty, so its length always allows one call. -/
theorem readsBack_of_succ {j : Json} (opens : ∃ c ∈ openers, ∃ cs, j.compact.toList = c :: cs)
    (reads : ∀ (fuel : Nat) (rest : List Char), 2 * j.compact.toList.length ≤ fuel + 1 →
      readValue (fuel + 1) (j.compact.toList ++ rest) = some (j.toDocument, rest)) :
    ReadsBack j := by
  refine ⟨opens, ?_⟩
  intro fuel rest h
  obtain ⟨c, -, cs, hcs⟩ := opens
  cases fuel with
  | zero => simp [hcs] at h
  | succ fuel => exact reads fuel rest h

theorem readsBack_null : ReadsBack .null := by
  refine readsBack_of_succ ⟨'n', by decide, _, rfl⟩ ?_
  intro fuel rest _
  simp [compact, toDocument, readValue, skipSpace]

theorem readsBack_bool (b : Bool) : ReadsBack (.bool b) := by
  cases b with
  | false =>
    refine readsBack_of_succ ⟨'f', by decide, _, rfl⟩ ?_
    intro fuel rest _
    simp [compact, toDocument, readValue, skipSpace]
  | true =>
    refine readsBack_of_succ ⟨'t', by decide, _, rfl⟩ ?_
    intro fuel rest _
    simp [compact, toDocument, readValue, skipSpace]

/-- A string comes back, quotes, control characters and all. -/
theorem readsBack_string (s : String) : ReadsBack (.string s) := by
  refine readsBack_of_succ ⟨'"', by decide, _, toList_stringText s⟩ ?_
  intro fuel rest _
  rw [compact, toList_stringText]
  simp [readValue, skipSpace, readString_characters, toDocument]

/-! ## Arrays -/

theorem compactItems_cons_cons (item next : Json) (items : List Json) :
    (compactItems (item :: next :: items)).toList =
      item.compact.toList ++ ',' :: (compactItems (next :: items)).toList := by
  rw [compactItems]
  · simp
  · simp

/-- The loop over the items reads all of them, with enough calls for twice the length of their text,
and stops behind the bracket. -/
theorem readItems_compactItems {item : Json} {items : List Json}
    (hback : ∀ i ∈ item :: items, ReadsBack i) (fuel : Nat) (read : List Document)
    (rest : List Char) (hfuel : 2 * (compactItems (item :: items)).toList.length + 1 ≤ fuel) :
    readItems fuel read ((compactItems (item :: items)).toList ++ ']' :: rest) =
      some (read.reverse ++ itemDocuments (item :: items), rest) := by
  -- A call is used up for every item, and the text gets shorter by more than that.
  induction items generalizing item fuel read with
  | nil =>
    obtain ⟨fuel, rfl⟩ : ∃ n, fuel = n + 1 := ⟨fuel - 1, by omega⟩
    rw [compactItems] at hfuel ⊢
    have hread := (hback item List.mem_cons_self).reads fuel (']' :: rest) (by omega)
    simp [readItems, hread, skipSpace, itemDocuments]
  | cons next items ih =>
    obtain ⟨fuel, rfl⟩ : ∃ n, fuel = n + 1 := ⟨fuel - 1, by omega⟩
    rw [compactItems_cons_cons] at hfuel ⊢
    rw [List.length_append, List.length_cons] at hfuel
    have hread := (hback item List.mem_cons_self).reads fuel
      (',' :: ((compactItems (next :: items)).toList ++ ']' :: rest)) (by omega)
    have hitems := ih (fun i hi => hback i (List.mem_cons_of_mem _ hi)) fuel
      (item.toDocument :: read) (by omega)
    rw [List.append_assoc, List.cons_append, readItems, hread]
    simp [skipSpace, hitems, itemDocuments]

/-- The items of an array begin as its first one does. -/
theorem compactItems_opens {item : Json} (h : ReadsBack item) (items : List Json) :
    ∃ c ∈ openers, ∃ cs, (compactItems (item :: items)).toList = c :: cs := by
  obtain ⟨c, hc, cs, hcs⟩ := h.opens
  cases items with
  | nil => exact ⟨c, hc, cs, hcs⟩
  | cons next items => exact ⟨c, hc, _, by rw [compactItems_cons_cons, hcs, List.cons_append]⟩

/-- An array comes back if its items do. -/
theorem readsBack_array {items : List Json} (hback : ∀ i ∈ items, ReadsBack i) :
    ReadsBack (.array items) := by
  have htext : (Json.array items).compact.toList = '[' :: ((compactItems items).toList ++ [']']) := by
    simp [compact]
  refine readsBack_of_succ ⟨'[', by decide, _, htext⟩ ?_
  intro fuel rest hfuel
  rw [htext] at hfuel ⊢
  cases items with
  | nil => simp [compactItems, readValue, skipSpace, toDocument, itemDocuments]
  | cons item items =>
    simp only [List.length_cons, List.length_append, List.length_nil] at hfuel
    have hitems := readItems_compactItems hback fuel [] rest (by omega)
    -- Behind the bracket stands the first character of an item, so the array is not taken for an
    -- empty one.
    obtain ⟨c, hc, cs, hcs⟩ := compactItems_opens (hback item List.mem_cons_self) items
    rw [hcs, List.cons_append] at hitems
    rw [hcs]
    simpa [toDocument] using readValue_bracket hc hitems

/-! ## Objects -/

theorem compactMembers_cons (key : String) (item : Json) :
    (compactMembers [(key, item)]).toList =
      '"' :: (key.toList.flatMap escapedChar ++ '"' :: ':' :: item.compact.toList) := by
  simp [compactMembers, toList_stringText]

theorem compactMembers_cons_cons (key : String) (item : Json) (next : String × Json)
    (members : List (String × Json)) :
    (compactMembers ((key, item) :: next :: members)).toList =
      '"' :: (key.toList.flatMap escapedChar ++ '"' :: ':' :: (item.compact.toList ++
        ',' :: (compactMembers (next :: members)).toList)) := by
  rw [compactMembers]
  · simp [toList_stringText]
  · simp

/-- The loop over the members reads all of them, with enough calls for twice the length of their
text, and stops behind the brace. -/
theorem readMembers_compactMembers {member : String × Json} {members : List (String × Json)}
    (hback : ∀ m ∈ member :: members, ReadsBack m.2) (fuel : Nat)
    (read : List (Option String × Document)) (rest : List Char)
    (hfuel : 2 * (compactMembers (member :: members)).toList.length + 1 ≤ fuel) :
    readMembers fuel read ((compactMembers (member :: members)).toList ++ '\x7d' :: rest) =
      some (read.reverse ++ memberDocuments (member :: members), rest) := by
  -- A call is used up for every member, and the text gets shorter by more than that.
  induction members generalizing member fuel read with
  | nil =>
    obtain ⟨fuel, rfl⟩ : ∃ n, fuel = n + 1 := ⟨fuel - 1, by omega⟩
    obtain ⟨key, item⟩ := member
    have hitem : ReadsBack item := hback _ List.mem_cons_self
    rw [compactMembers_cons] at hfuel ⊢
    simp only [List.length_cons, List.length_append] at hfuel
    have hread := hitem.reads fuel ('\x7d' :: rest) (by omega)
    simp [readMembers, skipSpace, readString_characters, hread, memberDocuments]
  | cons next members ih =>
    obtain ⟨fuel, rfl⟩ : ∃ n, fuel = n + 1 := ⟨fuel - 1, by omega⟩
    obtain ⟨key, item⟩ := member
    have hitem : ReadsBack item := hback _ List.mem_cons_self
    rw [compactMembers_cons_cons] at hfuel ⊢
    simp only [List.length_cons, List.length_append] at hfuel
    have hread := hitem.reads fuel
      (',' :: ((compactMembers (next :: members)).toList ++ '\x7d' :: rest)) (by omega)
    have hmembers := ih (fun m hm => hback m (List.mem_cons_of_mem _ hm)) fuel
      ((some key, item.toDocument) :: read) (by omega)
    rw [readMembers]
    simp [skipSpace, readString_characters, hread, hmembers, memberDocuments]

/-- An object comes back if the values of its members do. -/
theorem readsBack_object {members : List (String × Json)} (hback : ∀ m ∈ members, ReadsBack m.2) :
    ReadsBack (.object members) := by
  have htext : (Json.object members).compact.toList =
      '\x7b' :: ((compactMembers members).toList ++ ['\x7d']) := by
    simp [compact]
  refine readsBack_of_succ ⟨'\x7b', by decide, _, htext⟩ ?_
  intro fuel rest hfuel
  rw [htext] at hfuel ⊢
  cases members with
  | nil => simp [compactMembers, readValue, skipSpace, toDocument, memberDocuments]
  | cons member members =>
    simp only [List.length_cons, List.length_append, List.length_nil] at hfuel
    have hmembers := readMembers_compactMembers hback fuel [] rest (by omega)
    -- Behind the brace stands the quote of a key, so the object is not taken for an empty one.
    obtain ⟨cs, hcs⟩ : ∃ cs, (compactMembers (member :: members)).toList = '"' :: cs := by
      cases members with
      | nil => exact ⟨_, compactMembers_cons _ _⟩
      | cons next members => exact ⟨_, compactMembers_cons_cons _ _ _ _⟩
    rw [hcs, List.cons_append] at hmembers
    rw [hcs]
    simp [readValue, skipSpace, hmembers, toDocument]

/-! ## Whole texts -/

/-- A value in which no number occurs. -/
inductive NumberFree : Json → Prop
  | null : NumberFree .null
  | bool (b : Bool) : NumberFree (.bool b)
  | string (s : String) : NumberFree (.string s)
  | array {items : List Json} (h : ∀ i ∈ items, NumberFree i) : NumberFree (.array items)
  | object {members : List (String × Json)} (h : ∀ m ∈ members, NumberFree m.2) :
    NumberFree (.object members)

/-- A value without numbers comes back, by induction on how it is built. -/
theorem NumberFree.readsBack {j : Json} (h : NumberFree j) : ReadsBack j := by
  induction h with
  | null => exact readsBack_null
  | bool b => exact readsBack_bool b
  | string s => exact readsBack_string s
  | array _ ih => exact readsBack_array ih
  | object _ ih => exact readsBack_object ih

/-- A value without numbers is read from its text as the document that it is. -/
theorem NumberFree.read?_compact {j : Json} (h : NumberFree j) :
    Document.read? j.compact = some j.toDocument := by
  have hread := h.readsBack.reads (2 * j.compact.toList.length + 2) [] (by omega)
  rw [List.append_nil] at hread
  simp [Document.read?, hread, skipSpace]

end AccessRules.Json
