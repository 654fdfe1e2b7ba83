import Mathlib.Data.List.Basic
import AccessRules.Proofs.Rule.Paths
import AccessRules.Proofs.Sql.Placeholders
import AccessRules.Proofs.Sql.Reading

/-!
# The words of a filter

The words in the text of a filter are its operators and its columns. An operator comes from the shape
of the rule and a column from a path in it, and a database tells the two apart by the spelling alone,
in upper and lower case. The keywords of rules are written in lower case and the names of columns are
only checked for their characters, so a path such as `TRUE` gets through and is no column any more:

> `words_text`: the words of the text are those that the rule writes, operators and columns in order.
> `keywords_eq_operators_iff`: the keywords among them are the operators of the rule exactly if no
> column of the rule has the name of a keyword.
-/

namespace AccessRules

open Rule

namespace Sql

/-! ## The words of a text -/

/-- A word that is written. -/
inductive Word
  | connective (op : Connective)
  | not
  | member
  | like
  | column (name : String)
deriving DecidableEq

namespace Word

/-- A word as it stands in a text. -/
def text : Word → String
  | .connective op => connectiveWord op
  | .not => "NOT"
  | .member => "IN"
  | .like => "LIKE"
  | .column name => name

/-- The name of a column, if the word is one. -/
def column? : Word → Option String
  | .column name => some name
  | _ => none

/-- Whether a word is an operator. -/
def isOperator : Word → Bool
  | .column _ => false
  | _ => true

/-- Every operator is a keyword. -/
theorem isKeyword_of_isOperator {word : Word} (h : word.isOperator = true) :
    isKeyword word.text = true := by
  cases word with
  | column name => cases h
  | connective op => cases op <;> decide +kernel
  | _ => decide +kernel

end Word

/-- The word that a token is, if it is one. -/
def Token.words : Token → List String
  | .word text => [text]
  | _ => []

/-- The words of a text, if it is a row of tokens. -/
def words (text : String) : Option (List String) :=
  (lex text).map (List.flatMap Token.words)

/-- The word for a sign of comparison; all but `IN` are written with signs. -/
def signWords : Comparison → List Word
  | .member => [.member]
  | _ => []

/-- The words of a condition. -/
def Condition.words : Condition → List Word
  | .column name => [.column name]
  | .parameter _ => []
  | .not c => .not :: c.words
  | .connective op left right => left.words ++ .connective op :: right.words
  | .comparison op left right => left.words ++ (signWords op ++ right.words)
  | .oneOf c _ => c.words ++ [.member]
  | .never => []
  | .like _ text part => text.words ++ .like :: part.words

theorem words_signToken (op : Comparison) :
    (signToken op).words = (signWords op).map Word.text := by
  cases op <;> rfl

/-- The words among the tokens of a condition are the words of the condition. -/
theorem words_tokens : (c : Condition) → c.tokens.flatMap Token.words = c.words.map Word.text
  | .column _ => rfl
  | .parameter _ => rfl
  | .never => rfl
  | .not c => by
    have hc := words_tokens c
    simp [Condition.tokens, Condition.words, Token.words, Word.text, hc]
  | .connective op left right => by
    have hleft := words_tokens left
    have hright := words_tokens right
    simp [Condition.tokens, Condition.words, Token.words, Word.text, hleft, hright]
  | .comparison op left right => by
    have hleft := words_tokens left
    have hright := words_tokens right
    simp [Condition.tokens, Condition.words, words_signToken, hleft, hright]
  | .oneOf c numbers => by
    have hc := words_tokens c
    have hitems := flatMap_itemTokens (f := Token.words) rfl numbers
    simp [Condition.tokens, Condition.words, Token.words, Word.text, hc, hitems]
  | .like pattern text part => by
    have htext := words_tokens text
    have hpart := words_tokens part
    have hpattern := flatMap_patternTokens (f := Token.words) rfl rfl pattern part.tokens
    simp [Condition.tokens, Condition.words, Token.words, Word.text, hpattern, htext, hpart]

end Sql

/-! ## The words that a rule writes -/

namespace Rule.Expr

/-- The column of a path, unless it refers to something else. -/
def pathWords (path : String) : List Sql.Word :=
  match Variable.ofPath path with
  | .field name => [.column name]
  | _ => []

/-- The column that a macro looks at by itself. -/
def macroWords (name : String) : List Sql.Word :=
  match Function.ofName? name with
  | some .ownsRecord | some .isCreator => [.column Sql.ownerColumn]
  | _ => []

/-- The words of a call, whose two arguments, if there are two, are matched with `LIKE`. -/
def callWords (name : String) (args : List (List Sql.Word)) : List Sql.Word :=
  match args with
  | [text, part] => text ++ .like :: part
  | _ => macroWords name ++ args.flatten

mutual

/-- The operators and columns that a rule writes in the text of its filter. -/
def written : Expr → List Sql.Word
  | .literal _ => []
  | .path name => pathWords name
  | .comparison op left right =>
    if op = .member then if itemOrigins right = [] then [] else written left ++ [.member]
    else written left ++ written right
  | .connective op left right => written left ++ .connective op :: written right
  | .not operand => .not :: written operand
  | .call name args => callWords name (argWritten args)

/-- What each of some arguments writes. -/
def argWritten : List Expr → List (List Sql.Word)
  | [] => []
  | arg :: args => written arg :: argWritten args

end

/-- The columns of a rule that stand in the text of its filter. -/
def columns (e : Expr) : List String :=
  e.written.filterMap Sql.Word.column?

/-- The operators of a rule that are words in the text of its filter. -/
def operators (e : Expr) : List String :=
  (e.written.filter Sql.Word.isOperator).map Sql.Word.text

end Rule.Expr

namespace Sql

variable {auth : Auth} {b b' : Bindings} {c : Condition}

/-- A call becomes the words that its function brings and those of its arguments. -/
theorem words_of_compileCall {name : String} {f : Function} {args : List Condition}
    (hname : Function.ofName? name = some f) (h : compileCall auth f args b = .ok (c, b')) :
    c.words = Expr.callWords name (args.map Condition.words) := by
  rcases compileCall_cases h with ⟨-, pattern, text, part, rfl, rfl, rfl⟩ |
    ⟨rfl, role, rfl, rfl, rfl⟩ | ⟨hf, rfl, rfl, rfl⟩
  · rfl
  · simp [Expr.callWords, Expr.macroWords, hname, Condition.words, signWords]
  · rcases hf with rfl | rfl <;>
      simp [Expr.callWords, Expr.macroWords, hname, Condition.words, signWords]

mutual

/-- **The words of a compiled condition are those that the rule writes**, in the same order. -/
theorem words_of_compile : (e : Expr) → {b b' : Bindings} → {c : Condition} →
    compile auth b e = .ok (c, b') → c.words = e.written
  | .literal value, b, b', c, h => by
    obtain ⟨-, rfl, -⟩ := compile_literal_eq_ok_iff.mp h
    rw [Expr.written, Condition.words]
  | .path name, b, b', c, h => by
    rw [Expr.written, Expr.pathWords]
    rcases compilePath_eq_ok_iff.mp (compile_path_eq_ok_iff.mp h) with
      ⟨field, hof, -, rfl, -⟩ | ⟨field, hof, -, rfl, -⟩ | ⟨field, hof, -, rfl, -⟩
    · rw [hof, Condition.words]
    · rw [hof, Condition.words]
    · rw [hof, Condition.words]
  | .comparison op left right, b, b', c, h => by
    rw [Expr.written]
    by_cases hop : op = .member
    · rw [hop] at h
      obtain ⟨l, b₁, hleft, hmember⟩ := compile_member_eq_ok_iff.mp h
      rw [if_pos hop, ← words_of_compile left hleft]
      obtain ⟨items, rfl, ⟨rfl, rfl, -⟩ | ⟨hne, rfl, -⟩⟩ := compileMembership_eq_ok_iff.mp hmember
      · rfl
      · -- With items in it the list is looked into, and the operand stands in the text.
        have hitems : Expr.itemOrigins (.literal (.list items)) ≠ [] := by
          intro hnil
          exact hne (List.map_eq_nil_iff.mp hnil)
        rw [if_neg hitems, Condition.words]
    · obtain ⟨l, b₁, hleft, r, b₂, hright, rfl, -⟩ := (compile_comparison_eq_ok_iff hop).mp h
      -- Only `in` is a word in the text; the other signs are none.
      have hsign : signWords op = [] := by
        cases op with
        | member => exact absurd rfl hop
        | _ => rfl
      rw [if_neg hop, ← words_of_compile left hleft, ← words_of_compile right hright,
        Condition.words, hsign, List.nil_append]
  | .connective op left right, b, b', c, h => by
    obtain ⟨l, b₁, hleft, r, b₂, hright, rfl, -⟩ := compile_connective_eq_ok_iff.mp h
    rw [Expr.written, Condition.words, words_of_compile left hleft, words_of_compile right hright]
  | .not operand, b, b', c, h => by
    obtain ⟨d, b₁, hoperand, rfl, -⟩ := compile_not_eq_ok_iff.mp h
    rw [Expr.written, Condition.words, words_of_compile operand hoperand]
  | .call name args, b, b', c, h => by
    obtain ⟨f, hresolve, -, cs, b₁, hargs, hcall⟩ := compile_call_eq_ok_iff.mp h
    obtain ⟨hname, -⟩ := Function.resolve_eq_ok_iff.mp hresolve
    rw [Expr.written, words_of_compileCall hname hcall, words_of_compileArgs args hargs]

theorem words_of_compileArgs : (args : List Expr) → {b b' : Bindings} → {cs : List Condition} →
    compileArgs auth b args = .ok (cs, b') → cs.map Condition.words = Expr.argWritten args
  | [], b, b', cs, h => by
    rw [compileArgs] at h
    cases h
    rw [Expr.argWritten, List.map_nil]
  | arg :: args, b, b', cs, h => by
    obtain ⟨d, b₁, harg, ds, b₂, hargs, rfl, -⟩ := compileArgs_cons_eq_ok_iff.mp h
    rw [Expr.argWritten, List.map_cons, words_of_compile arg harg, words_of_compileArgs args hargs]

end

/-- **The words of a filter are those that the rule writes.** -/
theorem words_text {e : Expr} {filter : Filter} (h : Filter.ofExpr auth e = .ok filter) :
    words filter.sql = some (e.written.map Word.text) := by
  obtain ⟨c, b, hcompile, hsql, -⟩ := exists_compile_of_ofExpr h
  rw [hsql, words, lex_text (compile_plain e hcompile), Option.map_some, words_tokens,
    words_of_compile e hcompile]

/-! ## Keywords and operators -/

/-- The keywords among some words are the operators exactly if no column has the name of a keyword. -/
theorem filter_isKeyword_eq_iff (ws : List Word) :
    (ws.map Word.text).filter isKeyword = (ws.filter Word.isOperator).map Word.text ↔
      ∀ name, .column name ∈ ws → isKeyword name = false := by
  rw [List.filter_map]
  constructor
  · intro h name hname
    -- All operators are keywords, so that there are no more keywords than operators.
    have hsublist : (ws.filter Word.isOperator).Sublist (ws.filter (isKeyword ∘ Word.text)) :=
      List.monotone_filter_right ws fun _ => Word.isKeyword_of_isOperator
    have hlength := congrArg List.length h
    rw [List.length_map, List.length_map] at hlength
    have heq := hsublist.eq_of_length hlength.symm
    refine Bool.eq_false_iff.mpr fun hkeyword => ?_
    have hmem : Word.column name ∈ ws.filter (isKeyword ∘ Word.text) :=
      List.mem_filter.mpr ⟨hname, hkeyword⟩
    rw [← heq] at hmem
    cases (List.mem_filter.mp hmem).2
  · intro h
    congr 1
    refine List.filter_congr fun word hword => ?_
    cases hoperator : word.isOperator with
    | true => exact Word.isKeyword_of_isOperator hoperator
    | false =>
      cases word with
      | column name => exact h name hword
      | _ => cases hoperator

/-- A word that a database reads as a column, and as none of its operators. -/
def StaysColumn (name : String) : Prop :=
  readOperand (.token (.word name)) = some (.column name) ∧
    ∀ keyword ∈ keywords, (Item.token (.word name)).isWord keyword = false

/-- A name stays a column if it is no keyword. -/
theorem staysColumn_iff {name : String} : StaysColumn name ↔ isKeyword name = false := by
  constructor
  · rintro ⟨-, hwords⟩
    refine Bool.eq_false_iff.mpr fun hkeyword => ?_
    have hword := hwords name.toUpper (List.contains_iff_mem.mp hkeyword)
    rw [Item.isWord, beq_self_eq_true] at hword
    cases hword
  · exact fun h => ⟨readOperand_column h, fun _ hkeyword => isWord_eq_false h hkeyword⟩

end Sql

/-! ## The columns of a rule are its paths -/

namespace Rule.Expr

theorem mem_columns_iff {e : Expr} {name : String} :
    name ∈ e.columns ↔ .column name ∈ e.written := by
  rw [columns, List.mem_filterMap]
  constructor
  · rintro ⟨word, hword, hname⟩
    cases word with
    | column name' =>
      cases hname
      exact hword
    | _ => cases hname
  · exact fun h => ⟨_, h, rfl⟩

/-- A path is written as the column of its own name, or as no column. -/
theorem eq_of_mem_pathWords {p name : String} (h : .column name ∈ pathWords p) : name = p := by
  have hpath := Variable.path_ofPath p
  unfold pathWords at h
  cases hof : Variable.ofPath p with
  | field q =>
    rw [hof] at h hpath
    have hname : name = q := by simpa using h
    exact hname.trans hpath
  | _ =>
    rw [hof] at h
    cases h

/-- The one column that a macro brings is that of the owner. -/
theorem eq_of_mem_macroWords {f name : String} (h : .column name ∈ macroWords f) :
    name = Sql.ownerColumn := by
  unfold macroWords at h
  split at h
  · simpa using h
  · simpa using h
  · cases h

/-- The columns of a call are the owner and those of its arguments. -/
theorem mem_of_mem_callWords {f name : String} {args : List (List Sql.Word)}
    (h : .column name ∈ callWords f args) :
    name = Sql.ownerColumn ∨ .column name ∈ args.flatten := by
  unfold callWords at h
  split at h
  · exact .inr (by simpa using h)
  · rcases List.mem_append.mp h with hmacro | hargs
    · exact .inl (eq_of_mem_macroWords hmacro)
    · exact .inr hargs

mutual

/-- A column comes from a path of the rule, or from a macro. -/
theorem mem_paths_of_written {name : String} : (e : Expr) → .column name ∈ e.written →
    name = Sql.ownerColumn ∨ name ∈ e.paths
  | .literal _, h => by
    rw [written] at h
    cases h
  | .path p, h => by
    rw [written] at h
    rw [paths, eq_of_mem_pathWords h]
    exact .inr (List.mem_singleton_self _)
  | .comparison op left right, h => by
    rw [written] at h
    rw [paths, List.mem_append, ← or_assoc]
    split at h
    · split at h
      · cases h
      · have hleft : .column name ∈ left.written := by simpa using h
        exact .inl (mem_paths_of_written left hleft)
    · rcases List.mem_append.mp h with hleft | hright
      · exact .inl (mem_paths_of_written left hleft)
      · exact (mem_paths_of_written right hright).imp_left .inl
  | .connective op left right, h => by
    rw [written] at h
    rw [paths, List.mem_append, ← or_assoc]
    rcases List.mem_append.mp h with hleft | hright
    · exact .inl (mem_paths_of_written left hleft)
    · have hright : .column name ∈ right.written := by simpa using hright
      exact (mem_paths_of_written right hright).imp_left .inl
  | .not operand, h => by
    rw [written] at h
    have hoperand : .column name ∈ operand.written := by simpa using h
    rw [paths]
    exact mem_paths_of_written operand hoperand
  | .call f args, h => by
    rw [written] at h
    rw [paths]
    -- A macro brings the column of the owner; all others are in the arguments.
    rcases mem_of_mem_callWords h with howner | hargs
    · exact .inl howner
    · exact mem_argPaths_of_written args hargs

theorem mem_argPaths_of_written {name : String} : (args : List Expr) →
    .column name ∈ (argWritten args).flatten → name = Sql.ownerColumn ∨ name ∈ argPaths args
  | [], h => by
    rw [argWritten] at h
    cases h
  | arg :: args, h => by
    rw [argWritten, List.flatten_cons] at h
    rw [argPaths, List.mem_append, ← or_assoc]
    rcases List.mem_append.mp h with harg | hargs
    · exact .inl (mem_paths_of_written arg harg)
    · exact (mem_argPaths_of_written args hargs).imp_left .inl

end

end Rule.Expr

namespace Sql

variable {auth : Auth}

/-- **Columns stay columns exactly if none has the name of a keyword.** The words of a filter are those
that the rule writes. The keywords among them are the operators of the rule if and only if no column
of the rule has the name of a keyword, in whatever case; a column is read back as this column and as
no operator if and only if its own name is none. So nothing is mistaken if no path of the rule is a
keyword. -/
theorem keywords_eq_operators_iff {e : Expr} {filter : Filter}
    (h : Filter.ofExpr auth e = .ok filter) :
    words filter.sql = some (e.written.map Word.text) ∧
      ((words filter.sql).map (List.filter isKeyword) = some e.operators ↔
        ∀ name ∈ e.columns, isKeyword name = false) ∧
      (∀ name ∈ e.columns, StaysColumn name ↔ isKeyword name = false) ∧
      ((∀ p ∈ e.paths, isKeyword p = false) → ∀ name ∈ e.columns, isKeyword name = false) := by
  have hwords := words_text h
  refine ⟨hwords, ?_, fun name _ => staysColumn_iff, ?_⟩
  · rw [hwords, Option.map_some, Option.some_inj, Expr.operators, filter_isKeyword_eq_iff]
    simp only [Expr.mem_columns_iff]
  · intro hpaths name hname
    have howner : isKeyword ownerColumn = false := by decide +kernel
    rcases Expr.mem_paths_of_written e (Expr.mem_columns_iff.mp hname) with rfl | hpath
    · exact howner
    · exact hpaths name hpath

/-- A rule with four operators and the column that a macro looks at. -/
theorem keywords_eq_operators_status :
    let e : Expr := .connective .or
      (.connective .and (.comparison .member (.path "status") (.literal (.list [.string "a"])))
        (.call "contains" [.path "title", .literal (.string "x")]))
      (.call "@owns_record" [])
    let filter : Filter :=
      ⟨"((status IN (:param_0) AND title LIKE '%' || :param_1 || '%') OR owner_id = :auth_id)",
        [("auth_id", .string ""), ("param_0", .string "a"), ("param_1", .string "x")]⟩
    Filter.ofExpr .empty e = .ok filter ∧ e.columns = ["status", "title", "owner_id"] ∧
      (∀ p ∈ e.paths, isKeyword p = false) ∧
      (words filter.sql).map (List.filter isKeyword) = some ["IN", "AND", "LIKE", "OR"] := by
  intro e filter
  have hfilter : Filter.ofExpr .empty e = .ok filter := rfl
  have hpaths : ∀ p ∈ e.paths, isKeyword p = false := by decide +kernel
  obtain ⟨-, hkeywords, -, hcolumns⟩ := keywords_eq_operators_iff hfilter
  exact ⟨hfilter, rfl, hpaths, hkeywords.mpr (hcolumns hpaths)⟩

/-- The path `TRUE` is a column for the rule and a constant for the database: the rule is false where
nothing is known about it, and its filter holds of every row. -/
theorem column_read_as_constant :
    let e : Expr := .comparison .eq (.path "TRUE") (.literal (.bool true))
    let filter : Filter := ⟨"TRUE = :param_0", [("param_0", .bool true)]⟩
    let clause : Clause :=
      .comparison .eq (.constant (.bool true)) (.placeholder "param_0")
    parse "TRUE == true" = .ok e ∧ e.evaluate ⟨[]⟩ 0 = .ok (.bool false) ∧
      Filter.ofExpr .empty e = .ok filter ∧ e.columns = ["TRUE"] ∧ isKeyword "TRUE" = true ∧
      read filter.sql = some clause ∧
      ∀ row, clause.truth row (fun _ => .bool true) = true := by
  intro e filter clause
  have hkeyword : isKeyword "TRUE" = true := by decide +kernel
  have hparse : parse "TRUE == true" = .ok e := by with_unfolding_all rfl
  have hlex : lex filter.sql = some [.word "TRUE", .sign .eq, .placeholder "param_0"] := by
    decide +kernel
  have hoperand : readOperand (.token (.word "TRUE")) = some (.constant (.bool true)) := by
    have hupper : "TRUE".toUpper = "TRUE" := by decide +kernel
    simp [readOperand, hkeyword, hupper]
  have hlevel : Level [.token (.word "TRUE"), .token (.sign .eq), .token (.placeholder "param_0")]
      clause := by
    have hnot : (Item.token (.word "TRUE")).isWord "NOT" = false := by decide +kernel
    refine ⟨?_, by decide +kernel⟩
    simp only [readNegation, hnot, readComparison, hoperand]
    rfl
  refine ⟨hparse, rfl, rfl, rfl, hkeyword, ?_, fun _ => rfl⟩
  rw [read, hlex]
  exact hlevel.readLevel

end Sql

end AccessRules
