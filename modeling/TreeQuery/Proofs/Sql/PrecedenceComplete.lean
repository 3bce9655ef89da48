import Mathlib
import TreeQuery.Proofs.Sql.Spelling

/-!
# The words of a well grouped tree read back

With enough fuel, the reader by precedence takes the words of a well grouped tree, and
gives a tree of the same bare form.  The two need not be equal: chains of `AND` and of
`OR` associate to the left when read.
-/

namespace TreeQuery.Sql.Precedence

/-! ## What the readers do with enough fuel -/

/-- With enough fuel, the tokens read as an expression of a level and leave the rest. -/
def Reads (level : Nat) (tokens : List Token) (whole : Expr) (rest : List Token) : Prop :=
  ∀ fuel, 8 * tokens.length + 6 ≤ fuel → expr? fuel level tokens = some (whole, rest)

/-- With enough fuel, the tokens start with a unit and leave the rest. -/
def Starts (level : Nat) (tokens : List Token) (left : Expr) (rest : List Token) : Prop :=
  ∀ fuel, 8 * tokens.length + 5 ≤ fuel → unit? fuel level tokens = some (left, rest)

/-- With enough fuel, the tokens continue an expression and leave the rest. -/
def Continues (level : Nat) (left : Expr) (tokens : List Token) (whole : Expr)
    (rest : List Token) : Prop :=
  ∀ fuel, 8 * tokens.length + 1 ≤ fuel → extend? fuel level left tokens = some (whole, rest)

/-- With enough fuel, the tokens complete an operation and leave the rest. -/
def Completes (left : Expr) (operation : Operation) (tokens : List Token) (whole : Expr)
    (rest : List Token) : Prop :=
  ∀ fuel, 8 * tokens.length + 8 ≤ fuel →
    complete? fuel left operation tokens = some (whole, rest)

/-- With enough fuel, the tokens read as the items of a list and leave the rest. -/
def Lists (tokens : List Token) (items : List Expr) (rest : List Token) : Prop :=
  ∀ fuel, 8 * tokens.length + 7 ≤ fuel → items? fuel tokens = some (items, rest)

/-- With enough fuel, the tokens read as the arguments of a call and leave the rest. -/
def Argues (tokens : List Token) (arguments : List Expr) (rest : List Token) : Prop :=
  ∀ fuel, 8 * tokens.length + 8 ≤ fuel → arguments? fuel tokens = some (arguments, rest)

/-- Behind an expression of less than a level nothing in the rest belongs to it. -/
def Ends (level : Nat) (rest : List Token) : Prop :=
  (∀ operation behind, Operation.read? rest = some (operation, behind) →
    operation.level < level) ∧ rest.head? ≠ some (.mark .dot)

theorem Ends.mono {level higher : Nat} {rest : List Token} (hends : Ends level rest)
    (hlevel : level ≤ higher) : Ends higher rest :=
  ⟨fun operation behind hread => (hends.1 operation behind hread).trans_le hlevel, hends.2⟩

theorem ends_nil (level : Nat) : Ends level [] :=
  ⟨nofun, nofun⟩

theorem ends_close (level : Nat) (rest : List Token) : Ends level (.mark .close :: rest) :=
  ⟨nofun, nofun⟩

theorem ends_comma (level : Nat) (rest : List Token) : Ends level (.mark .comma :: rest) :=
  ⟨nofun, nofun⟩

theorem ends_words {operation : Operation} {level : Nat} (hlevel : operation.level < level)
    (rest : List Token) : Ends level (operation.words ++ rest) := by
  constructor
  · intro other behind hread
    rw [Operation.read?_words] at hread
    cases hread
    exact hlevel
  · cases operation with
    | binary operator => cases operator <;> nofun
    | is truth negated => nofun
    | like negated caseless => cases negated <;> nofun
    | member negated => cases negated <;> nofun
    | window => nofun

variable {level : Nat} {left whole : Expr} {tokens rest behind : List Token}

theorem Starts.reads (hstart : Starts level (tokens ++ rest) left rest) (htokens : tokens ≠ [])
    (hrest : Continues level left rest whole behind) :
    Reads level (tokens ++ rest) whole behind := by
  apply Reading.forall_fuel
  intro fuel hfuel
  have hpositive := List.length_pos_iff.mpr htokens
  rw [List.length_append] at hfuel
  rw [expr?, hstart fuel (by rw [List.length_append]; omega), Option.bind_some]
  exact hrest fuel (by omega)

/-- Nothing continues an expression where it ends. -/
theorem Ends.continues (hends : Ends level rest) : Continues level left rest left rest := by
  apply Reading.forall_fuel
  intro fuel hfuel
  rw [extend?]
  cases hread : Operation.read? rest with
  | none => rfl
  | some read =>
      have hbelow := hends.1 read.1 read.2 hread
      exact if_neg fun hlevel => absurd hbelow (Nat.not_lt.mpr hlevel.1)

/-- An operation that splits nothing continues an expression. -/
theorem Completes.continues {operation : Operation} {next : Expr}
    (hcompletes : Completes left operation tokens next rest)
    (hlength : rest.length ≤ tokens.length)
    (hlevel : level ≤ operation.level ∧ operation.level ≤ left.level)
    (hrest : Continues level next rest whole behind) :
    Continues level left (operation.words ++ tokens) whole behind := by
  apply Reading.forall_fuel
  intro fuel hfuel
  have hpositive := List.length_pos_iff.mpr operation.words_ne_nil
  rw [List.length_append] at hfuel
  simp only [extend?, Operation.read?_words, if_pos hlevel, hcompletes fuel (by omega),
    Option.bind_some]
  exact hrest fuel (by omega)

/-! ## Units -/

theorem starts_not {operand : Expr} (hlevel : level ≤ 3) (hoperand : Reads 3 tokens operand rest) :
    Starts level (.keyword .NOT :: tokens) (.not operand) rest := by
  apply Reading.forall_fuel
  intro fuel hfuel
  rw [List.length_cons] at hfuel
  rw [unit?, if_pos hlevel, hoperand fuel (by omega), Option.map_some]

theorem starts_paren {inner : Expr} (hinner : Reads 1 tokens inner (.mark .close :: rest)) :
    Starts level (.mark .open :: tokens) (.paren inner) rest := by
  apply Reading.forall_fuel
  intro fuel hfuel
  rw [List.length_cons] at hfuel
  rw [unit?, hinner fuel (by omega)]

theorem starts_column (table : Option String) (name : String)
    (hrest : rest.head? ≠ some (.mark .dot)) :
    Starts level ((Expr.column table name).spell ++ rest) (.column table name) rest := by
  apply Reading.forall_fuel
  intro fuel hfuel
  cases table with
  | some table => rfl
  | none =>
      have hdot : ∀ others, rest ≠ .mark .dot :: others := by
        rintro others rfl
        exact hrest rfl
      simp [Expr.spell, Expr.tablePrefixed, unit?, atom?, hdot]

theorem starts_star (table : Option String) :
    Starts level ((Expr.star table).spell ++ rest) (.star table) rest := by
  apply Reading.forall_fuel
  intro fuel hfuel
  cases table <;> rfl

theorem starts_literal (value : Literal) :
    Starts level ((Expr.literal value).spell ++ rest) (.literal value) rest := by
  apply Reading.forall_fuel
  intro fuel hfuel
  rfl

/-! ## Calls -/

/-- Words that neither close a list nor mark the arguments of a call as distinct. -/
def Opens (tokens : List Token) : Prop :=
  ∀ rest, (tokens ++ rest).head? ≠ some (.mark .close) ∧
    (tokens ++ rest).head? ≠ some (.function "DISTINCT")

theorem Opens.append {first : List Token} (hfirst : Opens first) (second : List Token) :
    Opens (first ++ second) := by
  intro rest
  rw [List.append_assoc]
  exact hfirst (second ++ rest)

theorem opens_spell : ∀ {tree : Expr}, tree.WellGrouped → Opens tree.spell
  | .column table name, _ => by cases table <;> exact fun rest => ⟨nofun, nofun⟩
  | .star table, _ => by cases table <;> exact fun rest => ⟨nofun, nofun⟩
  | .literal value, _ => fun rest => ⟨nofun, nofun⟩
  | .not operand, _ => fun rest => ⟨nofun, nofun⟩
  | .paren operand, _ => fun rest => ⟨nofun, nofun⟩
  | .call name arguments flag, hgrouped => fun rest =>
      ⟨nofun, fun hhead => hgrouped.1 (by simpa [Expr.spell] using hhead)⟩
  | .binary operator left right, hgrouped => (opens_spell hgrouped.1.1).append _
  | .member operand values negated, hgrouped => (opens_spell hgrouped.1.1).append _
  | .is operand truth negated, hgrouped => (opens_spell hgrouped.1).append _
  | .like operand pattern negated caseless, hgrouped => (opens_spell hgrouped.1.1).append _
  | .window function partition, hgrouped => (opens_spell hgrouped.1.1).append _

theorem distinct_words (flag : Bool) {inner : List Token}
    (hinner : inner.head? ≠ some (.function "DISTINCT")) :
    distinct ((if flag then [.function "DISTINCT"] else []) ++ inner) = (flag, inner) := by
  cases flag with
  | true => rfl
  | false =>
      match inner, hinner with
      | [], _ => rfl
      | token :: others, hinner =>
          rw [if_neg Bool.false_ne_true, List.nil_append, distinct.eq_def]
          split
          · next name _ heq =>
              cases heq
              exact if_neg fun hname => hinner (by rw [hname]; rfl)
          · rfl

theorem starts_call {name : String} {arguments : List Expr} (hname : name ≠ "DISTINCT")
    (flag : Bool) (htokens : tokens.head? ≠ some (.function "DISTINCT"))
    (harguments : Argues tokens arguments rest) :
    Starts level (.function name :: .mark .open ::
      ((if flag then [.function "DISTINCT"] else []) ++ tokens)) (.call name arguments flag)
      rest := by
  apply Reading.forall_fuel
  intro fuel hfuel
  rw [List.length_cons, List.length_cons, List.length_append] at hfuel
  rw [unit?, if_neg hname, distinct_words flag htokens, harguments fuel (by omega),
    Option.map_some]

/-! ## Operations behind an operand -/

theorem completes_binary {right : Expr} (operator : BinaryOperator)
    (hright : Reads (operator.pull + 1) tokens right rest) :
    Completes left (.binary operator) tokens (.binary operator left right) rest := by
  apply Reading.forall_fuel
  intro fuel hfuel
  rw [complete?, hright fuel (by omega), Option.map_some]

theorem completes_is (truth : Truth) (negated : Bool) :
    Completes left (.is truth negated) tokens (.is left truth negated) tokens := by
  apply Reading.forall_fuel
  intro fuel hfuel
  rw [complete?]

theorem completes_like {pattern : Expr} (negated caseless : Bool)
    (hpattern : Reads 5 tokens pattern rest) :
    Completes left (.like negated caseless) tokens (.like left pattern negated caseless)
      rest := by
  apply Reading.forall_fuel
  intro fuel hfuel
  rw [complete?, hpattern fuel (by omega), Option.map_some]

theorem completes_member {values : List Expr} (negated : Bool)
    (hvalues : Lists tokens values rest) :
    Completes left (.member negated) (.mark .open :: tokens) (.member left values negated)
      rest := by
  apply Reading.forall_fuel
  intro fuel hfuel
  rw [List.length_cons] at hfuel
  rw [complete?, hvalues fuel (by omega), Option.map_some]

theorem completes_window_all :
    Completes left .window (.mark .open :: .mark .close :: rest) (.window left []) rest := by
  apply Reading.forall_fuel
  intro fuel hfuel
  rw [complete?]

theorem completes_window {partition : List Expr} (hpartition : Lists tokens partition rest) :
    Completes left .window (.mark .open :: .keyword .PARTITION_BY :: tokens)
      (.window left partition) rest := by
  apply Reading.forall_fuel
  intro fuel hfuel
  rw [List.length_cons, List.length_cons] at hfuel
  rw [complete?, hpartition fuel (by omega), Option.map_some]

/-! ## Trees -/

/-- The words of a tree read as another tree, whatever continues it behind them. -/
structure ReadsAs (tree read : Expr) : Prop where
  bare : read.bare = tree.bare
  level : read.level = tree.level
  reads : ∀ {level : Nat} {rest : List Token} {whole : Expr} {behind : List Token},
    level ≤ tree.level → Ends (tree.level + 1) rest → Continues level read rest whole behind →
      Reads level (tree.spell ++ rest) whole behind

/-- Behind the operator, the words of a tree continue a chain. -/
structure ContinuesAs (operator : BinaryOperator) (left tree read : Expr) : Prop where
  bare : read.bare = Expr.chain operator left.bare tree.bare
  level : read.level = operator.pull
  continues : ∀ {level : Nat} {rest : List Token} {whole : Expr} {behind : List Token},
    level ≤ operator.pull → Ends (operator.pull + 1) rest →
      Continues level read rest whole behind →
        Continues level left ((Operation.binary operator).words ++ (tree.spell ++ rest)) whole
          behind

/-- The words of a tree read as a tree of its bare form, at the start of a chain and
further on. -/
structure ReadsBack (tree : Expr) : Prop where
  first : ∃ read, ReadsAs tree read
  further : ∀ (operator : BinaryOperator) (left : Expr), operator.chains = true →
    operator.pull ≤ tree.level → operator.pull ≤ left.level →
      ∃ read, ContinuesAs operator left tree read

variable {tree operand read : Expr}

/-- Where nothing continues it, the words of a tree read alone. -/
theorem ReadsAs.alone (hread : ReadsAs tree read) (hlevel : level ≤ tree.level)
    (hends : Ends level rest) : Reads level (tree.spell ++ rest) read rest :=
  hread.reads hlevel (hends.mono (Nat.le_succ_of_le hlevel)) hends.continues

/-- A tree above the level of an operator is one link of its chains. -/
theorem ReadsAs.further {operator : BinaryOperator} (hread : ReadsAs tree read)
    (hchains : operator.chains = true) (hlevel : operator.pull < tree.level)
    (hleft : operator.pull ≤ left.level) :
    ContinuesAs operator left tree (.binary operator left read) where
  bare := by rw [Expr.bare_binary_chain hchains, hread.bare]
  level := rfl
  continues hle hends hrest :=
    (completes_binary operator (hread.alone hlevel hends)).continues (by simp) ⟨hle, hleft⟩ hrest

/-- A tree that is no chain itself reads back when it reads as some tree. -/
theorem ReadsAs.readsBack (hread : ReadsAs tree read)
    (hchain : ∀ operator : BinaryOperator, operator.chains = true →
      operator.pull ≠ tree.level) : ReadsBack tree where
  first := ⟨read, hread⟩
  further operator _ hchains hlevel hleft :=
    ⟨_, hread.further hchains (lt_of_le_of_ne hlevel (hchain operator hchains)) hleft⟩

/-- An operation behind an operand at its level or above. -/
theorem ReadsAs.operation (hread : ReadsAs operand read) (operation : Operation)
    (hoperand : operation.level ≤ operand.level)
    (hspell : tree.spell = operand.spell ++ (operation.words ++ tokens))
    (htree : tree.level = operation.level) (hwhole : whole.level = operation.level)
    (hbare : whole.bare = tree.bare)
    (hcompletes : ∀ rest, Ends (operation.level + 1) rest →
      Completes read operation (tokens ++ rest) whole rest) : ReadsAs tree whole where
  bare := hbare
  level := hwhole.trans htree.symm
  reads {level rest _ _} hlevel hends hrest := by
    rw [htree] at hlevel hends
    have hcontinues := (hcompletes rest hends).continues (by simp)
      ⟨hlevel, hoperand.trans hread.level.ge⟩ hrest
    rw [hspell, List.append_assoc, List.append_assoc]
    exact hread.reads (hlevel.trans hoperand) (ends_words (Nat.lt_succ_of_le hoperand) _)
      hcontinues

/-- Two chains of an operator with the operator between them are one chain. -/
theorem ReadsBack.chain {operator : BinaryOperator} {right : Expr}
    (hchains : operator.chains = true) (hleft : ReadsBack left) (hright : ReadsBack right)
    (hleftLevel : operator.pull ≤ left.level) (hrightLevel : operator.pull ≤ right.level) :
    ReadsBack (.binary operator left right) := by
  have hwhole : ∃ read, ReadsAs (.binary operator left right) read := by
    obtain ⟨first, hfirst⟩ := hleft.first
    obtain ⟨read, hread⟩ :=
      hright.further operator first hchains hrightLevel (hleftLevel.trans hfirst.level.ge)
    refine ⟨read, ?_, hread.level, fun hlevel hends hrest => ?_⟩
    · rw [hread.bare, hfirst.bare, Expr.bare_binary_chain hchains]
    · rw [Expr.spell, List.append_assoc, List.append_assoc]
      apply hfirst.reads (hlevel.trans hleftLevel) (ends_words (Nat.lt_succ_of_le hleftLevel) _)
      exact hread.continues hlevel hends hrest
  refine ⟨hwhole, fun other before hother hlevel hbefore => ?_⟩
  -- behind a weaker operator the chain is one link, behind its own it lengthens the chain
  rcases hlevel.lt_or_eq with hlower | hsame
  · obtain ⟨read, hread⟩ := hwhole
    exact ⟨_, hread.further hother hlower hbefore⟩
  · obtain rfl := BinaryOperator.eq_of_pull_eq hchains hsame
    obtain ⟨first, hfirst⟩ := hleft.further other before hchains hleftLevel hbefore
    obtain ⟨read, hread⟩ := hright.further other first hchains hrightLevel hfirst.level.ge
    refine ⟨read, ?_, hread.level, fun hle hends hrest => ?_⟩
    · rw [hread.bare, hfirst.bare, Expr.chain_assoc, Expr.bare_binary_chain hchains]
    · rw [Expr.spell, List.append_assoc, List.append_assoc]
      apply hfirst.continues hle (ends_words (Nat.lt_succ_self other.pull) _)
      exact hread.continues hle hends hrest

/-- A tree at the level of `NOT` or above is no chain. -/
theorem ReadsAs.readsBack_of_level (hread : ReadsAs tree read) (hlevel : 3 ≤ tree.level) :
    ReadsBack tree :=
  hread.readsBack fun _ hchains =>
    ((BinaryOperator.pull_lt_of_chains hchains).trans_le hlevel).ne

/-- A tree that is read as one unit. -/
theorem ReadsAs.of_starts (hbare : read.bare = tree.bare) (hlevel : read.level = tree.level)
    (hstarts : ∀ {level : Nat} {rest : List Token}, level ≤ tree.level →
      Ends (tree.level + 1) rest → Starts level (tree.spell ++ rest) read rest) :
    ReadsAs tree read :=
  ⟨hbare, hlevel, fun hle hends hrest => (hstarts hle hends).reads tree.spell_ne_nil hrest⟩

theorem readsBack_column (table : Option String) (name : String) :
    ReadsBack (.column table name) :=
  (ReadsAs.of_starts rfl rfl fun _ hends =>
    starts_column table name hends.2).readsBack_of_level (by simp [Expr.level])

theorem readsBack_star (table : Option String) : ReadsBack (.star table) :=
  (ReadsAs.of_starts rfl rfl fun _ _ =>
    starts_star table).readsBack_of_level (by simp [Expr.level])

theorem readsBack_literal (value : Literal) : ReadsBack (.literal value) :=
  (ReadsAs.of_starts rfl rfl fun _ _ =>
    starts_literal value).readsBack_of_level (by simp [Expr.level])

/-- What ends a negation ends its operand, as no operation stands between the two. -/
theorem Ends.of_not (hends : Ends 4 rest) : Ends 3 rest :=
  ⟨fun operation behind hread =>
    lt_of_le_of_ne (Nat.le_of_lt_succ (hends.1 operation behind hread)) operation.level_ne_three,
    hends.2⟩

theorem ReadsBack.not (hoperand : ReadsBack operand) (hlevel : 3 ≤ operand.level) :
    ReadsBack (.not operand) := by
  obtain ⟨read, hread⟩ := hoperand.first
  have hbare : (Expr.not read).bare = (Expr.not operand).bare := by
    rw [Expr.bare, Expr.bare, hread.bare]
  have hnot : ReadsAs (.not operand) (.not read) :=
    .of_starts hbare rfl fun hle hends => starts_not hle (hread.alone hlevel hends.of_not)
  exact hnot.readsBack_of_level le_rfl

theorem ReadsBack.paren (hoperand : ReadsBack operand) : ReadsBack (.paren operand) := by
  obtain ⟨read, hread⟩ := hoperand.first
  have hbare : (Expr.paren read).bare = (Expr.paren operand).bare := by
    rw [Expr.bare, Expr.bare, hread.bare]
  have hparen : ReadsAs (.paren operand) (.paren read) := by
    apply ReadsAs.of_starts hbare rfl
    intro level rest hlevel hends
    rw [Expr.spell, parenthesized_append]
    exact starts_paren (hread.alone operand.one_le_level (ends_close 1 rest))
  exact hparen.readsBack_of_level (by simp [Expr.level])

/-! ## Lists -/

/-- The words of a list read as another list, up to the parenthesis behind them. -/
structure ListsAs (items read : List Expr) : Prop where
  bare : Expr.bareList read = Expr.bareList items
  lists : ∀ rest, Lists (Expr.spellList items ++ .mark .close :: rest) read rest

theorem listsAs_singleton (hread : ReadsAs tree read) : ListsAs [tree] [read] where
  bare := by simp only [Expr.bareList, hread.bare]
  lists rest := by
    have hitem := hread.alone tree.one_le_level (ends_close 1 rest)
    apply Reading.forall_fuel
    intro fuel hfuel
    rw [Expr.spellList] at hfuel ⊢
    rw [items?, hitem fuel (by omega)]

theorem ListsAs.cons {second : Expr} {others items : List Expr} (hread : ReadsAs tree read)
    (hitems : ListsAs (second :: others) items) :
    ListsAs (tree :: second :: others) (read :: items) where
  bare := by rw [Expr.bareList, hread.bare, hitems.bare, ← Expr.bareList]
  lists rest := by
    have hitem := hread.alone tree.one_le_level
      (ends_comma 1 (Expr.spellList (second :: others) ++ .mark .close :: rest))
    apply Reading.forall_fuel
    intro fuel hfuel
    rw [Expr.spellList, List.append_assoc, List.cons_append] at hfuel ⊢
    rw [items?, hitem fuel (by omega)]
    rw [List.length_append, List.length_cons] at hfuel
    simp only [hitems.lists rest fuel (by omega), Option.map_some]

theorem opens_spellList {items : List Expr} (hgrouped : Expr.AllGrouped items)
    (hitems : items ≠ []) : Opens (Expr.spellList items) := by
  match items with
  | [] => exact absurd rfl hitems
  | [only] => exact opens_spell hgrouped.1
  | first :: second :: others => exact (opens_spell hgrouped.1).append _

/-- The words of arguments read as other arguments, up to the parenthesis behind them. -/
theorem ListsAs.arguments {items reads : List Expr} (hreads : ListsAs items reads)
    (hopens : Opens (Expr.spellList items)) (rest : List Token) :
    Argues (Expr.spellList items ++ .mark .close :: rest) reads rest := by
  have hhead := (hopens (.mark .close :: rest)).1
  have hlists := hreads.lists rest
  revert hhead hlists
  generalize Expr.spellList items ++ .mark .close :: rest = tokens
  intro hhead hlists
  apply Reading.forall_fuel
  intro fuel hfuel
  rw [arguments?, hlists fuel hfuel]
  rintro behind rfl
  exact hhead rfl

theorem argues_nil : Argues (.mark .close :: rest) [] rest := by
  apply Reading.forall_fuel
  intro fuel hfuel
  rw [arguments?]

theorem ReadsBack.call {name : String} {arguments reads : List Expr} (hname : name ≠ "DISTINCT")
    (flag : Bool) (hbare : Expr.bareList reads = Expr.bareList arguments)
    (htokens : ∀ rest, (Expr.spellList arguments ++ Token.mark .close :: rest).head? ≠
      some (.function "DISTINCT"))
    (harguments : ∀ rest, Argues (Expr.spellList arguments ++ .mark .close :: rest) reads rest) :
    ReadsBack (.call name arguments flag) := by
  have hcallBare : (Expr.call name reads flag).bare = (Expr.call name arguments flag).bare := by
    rw [Expr.bare, Expr.bare, hbare]
  have hcall : ReadsAs (.call name arguments flag) (.call name reads flag) := by
    apply ReadsAs.of_starts hcallBare rfl
    intro level rest _ _
    rw [Expr.spell, List.cons_append, parenthesized_append, List.append_assoc]
    exact starts_call hname flag (htokens rest) (harguments rest)
  exact hcall.readsBack_of_level (by simp [Expr.level])

/-! ## Operands -/

theorem ReadsBack.binary {operator : BinaryOperator} {right : Expr}
    (hoperator : operator.chains = false) (hleft : ReadsBack left) (hright : ReadsBack right)
    (hleftLevel : operator.pull ≤ left.level) (hrightLevel : operator.pull + 1 ≤ right.level) :
    ReadsBack (.binary operator left right) := by
  obtain ⟨first, hfirst⟩ := hleft.first
  obtain ⟨second, hsecond⟩ := hright.first
  have hbare : (Expr.binary operator first second).bare =
      (Expr.binary operator left right).bare := by
    simp [Expr.bare, hoperator, hfirst.bare, hsecond.bare]
  have hbinary : ReadsAs (.binary operator left right) (.binary operator first second) :=
    hfirst.operation (.binary operator) hleftLevel rfl rfl rfl hbare fun _ hends =>
      completes_binary operator (hsecond.alone hrightLevel hends)
  exact hbinary.readsBack_of_level
    ((Nat.le_succ 3).trans (BinaryOperator.pull_of_not_chains hoperator).ge)

theorem ReadsBack.is (hoperand : ReadsBack operand) (hlevel : 4 ≤ operand.level) (truth : Truth)
    (negated : Bool) : ReadsBack (.is operand truth negated) := by
  obtain ⟨read, hread⟩ := hoperand.first
  have hbare : (Expr.is read truth negated).bare = (Expr.is operand truth negated).bare := by
    rw [Expr.bare, Expr.bare, hread.bare]
  have hspell : (Expr.is operand truth negated).spell =
      operand.spell ++ ((Operation.is truth negated).words ++ []) := by
    rw [Expr.spell, List.append_nil]
  have his : ReadsAs (.is operand truth negated) (.is read truth negated) :=
    hread.operation (.is truth negated) hlevel hspell rfl rfl hbare
      fun _ _ => completes_is truth negated
  exact his.readsBack_of_level (by simp [Expr.level])

theorem ReadsBack.like {pattern : Expr} (hoperand : ReadsBack operand)
    (hlevel : 4 ≤ operand.level) (hpattern : ReadsBack pattern)
    (hpatternLevel : 5 ≤ pattern.level) (negated caseless : Bool) :
    ReadsBack (.like operand pattern negated caseless) := by
  obtain ⟨first, hfirst⟩ := hoperand.first
  obtain ⟨second, hsecond⟩ := hpattern.first
  have hbare : (Expr.like first second negated caseless).bare =
      (Expr.like operand pattern negated caseless).bare := by
    rw [Expr.bare, Expr.bare, hfirst.bare, hsecond.bare]
  have hlike : ReadsAs (.like operand pattern negated caseless)
      (.like first second negated caseless) :=
    hfirst.operation (.like negated caseless) hlevel rfl rfl rfl hbare
      fun _ hends => completes_like negated caseless (hsecond.alone hpatternLevel hends)
  exact hlike.readsBack_of_level (by simp [Expr.level])

theorem ReadsBack.member {values reads : List Expr} (hoperand : ReadsBack operand)
    (hlevel : 4 ≤ operand.level) (hvalues : ListsAs values reads) (negated : Bool) :
    ReadsBack (.member operand values negated) := by
  obtain ⟨read, hread⟩ := hoperand.first
  have hbare : (Expr.member read reads negated).bare =
      (Expr.member operand values negated).bare := by
    rw [Expr.bare, Expr.bare, hread.bare, hvalues.bare]
  have hmember : ReadsAs (.member operand values negated) (.member read reads negated) := by
    apply hread.operation (.member negated) hlevel rfl rfl rfl hbare
    intro rest hends
    rw [parenthesized_append]
    exact completes_member negated (hvalues.lists rest)
  exact hmember.readsBack_of_level (by simp [Expr.level])

theorem ReadsBack.window {function : Expr} {partition reads : List Expr}
    (hfunction : ReadsBack function) (hlevel : 5 ≤ function.level)
    (hbare : Expr.bareList reads = Expr.bareList partition)
    (hcompletes : ∀ left rest, Completes left .window
      (parenthesized ((if partition.isEmpty then [] else [.keyword .PARTITION_BY]) ++
        Expr.spellList partition) ++ rest) (.window left reads) rest) :
    ReadsBack (.window function partition) := by
  obtain ⟨read, hread⟩ := hfunction.first
  have hwholeBare : (Expr.window read reads).bare = (Expr.window function partition).bare := by
    rw [Expr.bare, Expr.bare, hread.bare, hbare]
  have hwindow : ReadsAs (.window function partition) (.window read reads) :=
    hread.operation .window hlevel rfl rfl rfl hwholeBare
      fun rest _ => hcompletes read rest
  exact hwindow.readsBack_of_level (by simp [Expr.level])

mutual

/-- The words of a well grouped tree read back as a tree of its bare form. -/
theorem readsBack : ∀ {tree : Expr}, tree.WellGrouped → ReadsBack tree
  | .column table name, _ => readsBack_column table name
  | .star table, _ => readsBack_star table
  | .literal value, _ => readsBack_literal value
  | .not operand, ⟨hoperand, hlevel⟩ => (readsBack hoperand).not hlevel
  | .paren operand, hoperand => ReadsBack.paren (readsBack hoperand)
  | .binary operator left right, ⟨⟨hleft, hleftLevel⟩, hright, hrightLevel⟩ => by
      rw [BinaryOperator.rightLevel] at hrightLevel
      cases hoperator : operator.chains with
      | true =>
          rw [if_pos hoperator] at hrightLevel
          exact .chain hoperator (readsBack hleft) (readsBack hright) hleftLevel hrightLevel
      | false =>
          rw [hoperator, if_neg Bool.false_ne_true] at hrightLevel
          exact .binary hoperator (readsBack hleft) (readsBack hright) hleftLevel hrightLevel
  | .is operand truth negated, ⟨hoperand, hlevel⟩ => (readsBack hoperand).is hlevel truth negated
  | .like operand pattern negated caseless, ⟨⟨hoperand, hlevel⟩, hpattern, hpatternLevel⟩ =>
      (readsBack hoperand).like hlevel (readsBack hpattern) hpatternLevel negated caseless
  | .member operand values negated, ⟨⟨hoperand, hlevel⟩, hvalues, hgrouped⟩ => by
      obtain ⟨reads, hreads⟩ := listsBack hgrouped hvalues
      exact (readsBack hoperand).member hlevel hreads negated
  | .call name [] flag, ⟨hname, _⟩ => .call hname flag rfl (fun _ => nofun) fun _ => argues_nil
  | .call name (first :: others) flag, ⟨hname, hgrouped⟩ => by
      obtain ⟨reads, hreads⟩ := listsBack hgrouped (List.cons_ne_nil first others)
      have hopens := opens_spellList hgrouped (List.cons_ne_nil first others)
      exact .call hname flag hreads.bare (fun rest => (hopens _).2) (hreads.arguments hopens)
  | .window function [], ⟨⟨hfunction, hlevel⟩, _⟩ =>
      (readsBack hfunction).window hlevel rfl fun _ _ => completes_window_all
  | .window function (first :: others), ⟨⟨hfunction, hlevel⟩, hgrouped⟩ => by
      obtain ⟨reads, hreads⟩ := listsBack hgrouped (List.cons_ne_nil first others)
      apply (readsBack hfunction).window hlevel hreads.bare
      intro left rest
      rw [parenthesized_append]
      exact completes_window (hreads.lists rest)

/-- The words of a list of well grouped trees read back as a list of their bare forms. -/
theorem listsBack : ∀ {items : List Expr}, Expr.AllGrouped items → items ≠ [] →
    ∃ reads, ListsAs items reads
  | [], _, hitems => absurd rfl hitems
  | [only], ⟨honly, _⟩, _ => by
      obtain ⟨read, hread⟩ := (readsBack honly).first
      exact ⟨[read], listsAs_singleton hread⟩
  | first :: second :: others, ⟨hfirst, hothers⟩, _ => by
      obtain ⟨read, hread⟩ := (readsBack hfirst).first
      obtain ⟨reads, hreads⟩ := listsBack hothers (List.cons_ne_nil second others)
      exact ⟨read :: reads, hreads.cons hread⟩

end

/-- Written in words, a well grouped tree reads back as a tree of its bare form. -/
theorem read?_of_words {words : List Token} (hgrouped : tree.WellGrouped)
    (hwords : Reading.words words = tree.spell) :
    ∃ read, read? words = some read ∧ read.bare = tree.bare := by
  obtain ⟨read, hread⟩ := (readsBack hgrouped).first
  have hwhole := hread.alone tree.one_le_level (ends_nil 1)
  rw [List.append_nil] at hwhole
  refine ⟨read, ?_, hread.bare⟩
  rw [read?, hwords, hwhole _ le_rfl]

end TreeQuery.Sql.Precedence
