import TreeQuery.Proofs.Session.Calls
import TreeQuery.Storage.Store

/-!
# Transactions that exclude each other

Several clients run transactions over one store, and the store takes their calls one after
the other, in any order.  While one client is inside its transaction the store refuses to
begin another, and a client that is refused makes no other call.  So nothing that others do
comes between the calls of a transaction.
-/

namespace TreeQuery

namespace Storage.Engine

variable {σ : Type} {engine : Engine σ} {state : σ}

/-- What is known of an engine: a transaction that it begins is open, and executing a
statement neither opens nor closes one. -/
structure Lawful (engine : Engine σ) : Prop where
  begins : ∀ state, (engine.begin state).1 = .ok () →
    engine.isOpen (engine.begin state).2 = true
  executes : ∀ statement state,
    engine.isOpen (engine.execute statement state).2 = engine.isOpen state

/-- While a transaction is open none begins, and the engine is not asked. -/
theorem tryBegin_of_open (hopen : engine.isOpen state = true) :
    engine.tryBegin state = (.error (.transaction "already in a transaction"), state) := by
  rw [tryBegin, guarded, hopen]
  rfl

theorem store_begin_of_open {start : σ} {history : Session.History}
    (hopen : engine.isOpen (engine.afterAll start history) = true) :
    (engine.store start).begin history = .error (.transaction "already in a transaction") :=
  congrArg Prod.fst (tryBegin_of_open hopen)

/-- Where a transaction begins, none was open before, and one is open afterwards. -/
theorem Lawful.begun (hlawful : engine.Lawful) (hbegin : (engine.tryBegin state).1 = .ok ()) :
    engine.isOpen state = false ∧ engine.isOpen (engine.tryBegin state).2 = true := by
  cases hopen : engine.isOpen state with
  | true =>
      rw [tryBegin_of_open hopen] at hbegin
      cases hbegin
  | false =>
      rw [tryBegin, guarded, hopen] at hbegin ⊢
      exact ⟨rfl, hlawful.begins state hbegin⟩

theorem afterAll_concat (engine : Engine σ) (start : σ) (history : Session.History)
    (call : Session.Call) : engine.afterAll start (history ++ [call]) =
      engine.after (engine.afterAll start history) call := by
  rw [afterAll, List.foldl_append]
  rfl

end Storage.Engine

namespace Session

open Catalog (Memo)
open Storage (Engine)

/-- A call executes a statement. -/
def Call.Executes : Call → Prop
  | .execute _ => True
  | .begin | .commit | .rollback => False

/-! ## Logs of several clients -/

variable {ι : Type} [DecidableEq ι]

/-- The calls of one client in a log. -/
def callsOf (log : List (ι × Call)) (client : ι) : History :=
  (log.filter fun event => event.1 = client).map Prod.snd

/-- The calls of all clients in a log. -/
def allCalls (log : List (ι × Call)) : History :=
  log.map Prod.snd

/-- A view of a store answers a call like the store, each after the calls it knows of. -/
def Connection.AnswersLike (view : Connection) (own : History) (store : Connection)
    (all : History) : Call → Prop
  | .begin => view.begin own = store.begin all
  | .execute statement => view.execute own statement = store.execute all statement
  | .commit => view.commit own = store.commit all
  | .rollback => view.rollback own = store.rollback all

/-- A log interleaves the transactions of clients.  Each client runs its transaction on its
own view of the store, perhaps not to the end: its calls are the first ones of this run, and
every answer is the one the store gave after all calls before, whoever made them. -/
structure Interleaves (store : Connection) {α : ι → Type}
    (work : (client : ι) → Connection → Run (α client)) (views : ι → Connection)
    (log : List (ι × Call)) : Prop where
  runs : ∀ client, ∃ (memo : Memo) (outcome : Except Failure (α client)) (calls : List Call)
    (finish : State),
      Makes (transaction (views client) (work client (views client))) { memo } outcome calls
        finish ∧ callsOf log client <+: calls
  answers : ∀ before client call, before ++ [(client, call)] <+: log →
    (views client).AnswersLike (callsOf before client) store (allCalls before) call

variable {before during log rest : List (ι × Call)} {client other : ι} {call : Call}

theorem callsOf_append (client : ι) : callsOf (before ++ rest) client =
    callsOf before client ++ callsOf rest client := by
  rw [callsOf, List.filter_append, List.map_append]
  rfl

theorem callsOf_concat_self (log : List (ι × Call)) (client : ι) (call : Call) :
    callsOf (log ++ [(client, call)]) client = callsOf log client ++ [call] := by
  rw [callsOf_append]
  simp [callsOf]

theorem callsOf_concat_of_ne (log : List (ι × Call)) (call : Call) (hother : other ≠ client) :
    callsOf (log ++ [(client, call)]) other = callsOf log other := by
  rw [callsOf_append]
  simp [callsOf, Ne.symm hother]

omit [DecidableEq ι] in
theorem allCalls_concat (log : List (ι × Call)) (client : ι) (call : Call) :
    allCalls (log ++ [(client, call)]) = allCalls log ++ [call] :=
  List.map_append

theorem mem_callsOf : call ∈ callsOf log client ↔ (client, call) ∈ log := by
  simp [callsOf]

/-! ## The course of one transaction -/

section

variable {α : Type} {step : Run α} {connection : Connection} {work : Run α} {start finish : State}
  {outcome : Except Failure α} {calls own : List Call}

/-- A transaction is refused with its first call, or it begins, executes statements and makes
one more call to end. -/
theorem transaction_course (hwork : OnlyCalls Call.Executes work)
    (hmakes : Makes (transaction connection work) start outcome calls finish) :
    connection.begin start.history ≠ .ok () ∧ calls = [.begin] ∨
      connection.begin start.history = .ok () ∧ ∃ executed last,
        calls = .begin :: executed ++ [last] ∧ (∀ call ∈ executed, call.Executes) ∧
          (last = .commit ∨ last = .rollback) := by
  cases hbegin : connection.begin start.history with
  | error problem =>
      left
      exact ⟨nofun, ((Makes.transaction_unbegun hbegin).unique hmakes).2.1⟩
  | ok done =>
      right
      obtain ⟨result, executed, middle, hworked, hexecuted⟩ := hwork (start.called .begin)
      refine ⟨rfl, executed, ?_⟩
      cases result with
      | ok value =>
          have hcalls := ((hworked.transaction_committed hbegin).unique hmakes).2.1
          exact ⟨.commit, hcalls, hexecuted, .inl rfl⟩
      | error failure =>
          have hcalls := ((hworked.transaction_rolledBack hbegin).unique hmakes).2.1
          exact ⟨.rollback, hcalls, hexecuted, .inr rfl⟩

/-- A client that has made some calls is inside its transaction: it was begun, and since
then only statements were executed. -/
def Inside (view : Connection) (own : History) : Prop :=
  view.begin [] = .ok () ∧ ∃ executed, own = .begin :: executed ∧
    ∀ call ∈ executed, call.Executes

theorem Inside.of_concat {call : Call} (hcall : call ≠ .begin)
    (hinside : Inside connection (own ++ [call])) :
    Inside connection own ∧ call.Executes := by
  obtain ⟨hbegin, executed, hcalls, hexecuted⟩ := hinside
  cases own with
  | nil => exact absurd (List.cons.inj hcalls).1 hcall
  | cons first rest =>
      obtain ⟨rfl, rfl⟩ := List.cons.inj hcalls
      refine ⟨⟨hbegin, rest, rfl, fun other hother => ?_⟩, ?_⟩
      · exact hexecuted other (List.mem_append_left _ hother)
      · exact hexecuted call (List.mem_append_right _ List.mem_cons_self)

/-- The next call of a transaction begins it, or is another call from inside. -/
theorem next_call {memo : Memo} {call : Call} (hwork : OnlyCalls Call.Executes work)
    (hmakes : Makes (transaction connection work) { memo } outcome calls finish)
    (hcalls : own ++ [call] <+: calls) :
    own = [] ∧ call = .begin ∨ Inside connection own ∧ call ≠ .begin := by
  rcases transaction_course hwork hmakes with ⟨-, rfl⟩ | ⟨hbegin, executed, last, rfl, hexecuted, hlast⟩
  · cases own with
    | nil => exact .inl ⟨rfl, (List.cons_prefix_cons.mp hcalls).1⟩
    | cons first rest =>
        have hlength := hcalls.length_le
        simp at hlength
  · cases own with
    | nil => exact .inl ⟨rfl, (List.cons_prefix_cons.mp hcalls).1⟩
    | cons first rest =>
        right
        obtain ⟨rfl, hrest⟩ := List.cons_prefix_cons.mp hcalls
        have hbefore : rest <+: executed := by
          have hlength := hrest.length_le
          apply List.prefix_of_prefix_length_le ((List.prefix_append _ _).trans hrest)
            (List.prefix_append _ _)
          simpa using hlength
        have hmem : call ∈ executed ++ [last] := by
          apply hrest.subset
          simp
        refine ⟨⟨hbegin, rest, rfl, fun other hother => hexecuted other (hbefore.subset hother)⟩, ?_⟩
        rintro rfl
        rcases List.mem_append.mp hmem with hmem | hmem
        · exact hexecuted _ hmem
        · rcases hlast with rfl | rfl <;> cases List.mem_singleton.mp hmem

/-- The calls of a transaction that is begun and not ended yet were made inside it. -/
theorem inside_of_prefix {memo : Memo} (hwork : OnlyCalls Call.Executes work)
    (hmakes : Makes (transaction connection work) { memo } outcome calls finish)
    (hbegin : connection.begin [] = .ok ()) (hown : .begin :: own <+: calls)
    (hcommit : .commit ∉ own) (hrollback : .rollback ∉ own) :
    Inside connection (.begin :: own) := by
  rcases transaction_course hwork hmakes with ⟨hrefused, -⟩ | ⟨-, executed, last, rfl, hexecuted, hlast⟩
  · exact absurd hbegin hrefused
  · refine ⟨hbegin, own, rfl, fun call hcall => ?_⟩
    have hmem := (List.cons_prefix_cons.mp hown).2.subset hcall
    rcases List.mem_append.mp hmem with hmem | hmem
    · exact hexecuted call hmem
    · obtain rfl := List.mem_singleton.mp hmem
      rcases hlast with rfl | rfl
      · exact absurd hcall hcommit
      · exact absurd hcall hrollback

end

/-! ## One client inside at a time -/

variable {σ : Type} {engine : Engine σ} {start : σ} {α : ι → Type}
  {work : (client : ι) → Connection → Run (α client)} {views : ι → Connection}

/-- While a client is inside its transaction, the engine's transaction is open and no other
client is inside. -/
structure Exclusive (engine : Engine σ) (start : σ) (views : ι → Connection)
    (log : List (ι × Call)) : Prop where
  opened : ∀ client, Inside (views client) (callsOf log client) →
    engine.isOpen (engine.afterAll start (allCalls log)) = true
  unique : ∀ first second, Inside (views first) (callsOf log first) →
    Inside (views second) (callsOf log second) → first = second

theorem Interleaves.of_prefix {store : Connection} (hlog : Interleaves store work views log)
    (hbefore : before <+: log) : Interleaves store work views before := by
  obtain ⟨rest, rfl⟩ := hbefore
  constructor
  · intro client
    obtain ⟨memo, outcome, calls, finish, hmakes, hcalls⟩ := hlog.runs client
    rw [callsOf_append] at hcalls
    exact ⟨memo, outcome, calls, finish, hmakes, (List.prefix_append _ _).trans hcalls⟩
  · intro earlier client call hearlier
    exact hlog.answers earlier client call (hearlier.trans (List.prefix_append _ _))

/-- The next call in a log begins a transaction, or is another call from inside one. -/
theorem Interleaves.next_call {store : Connection}
    (hwork : ∀ client view, OnlyCalls Call.Executes (work client view))
    (hlog : Interleaves store work views (log ++ [(client, call)])) :
    callsOf log client = [] ∧ call = .begin ∨
      Inside (views client) (callsOf log client) ∧ call ≠ .begin := by
  obtain ⟨memo, outcome, calls, finish, hmakes, hcalls⟩ := hlog.runs client
  rw [callsOf_concat_self] at hcalls
  exact Session.next_call (hwork client _) hmakes hcalls

/-- A client that begins is let in only when no client is inside. -/
theorem Exclusive.begun (hlawful : engine.Lawful) (hexclusive : Exclusive engine start views log)
    (hfirst : callsOf log client = [])
    (hanswer : (views client).begin [] =
      (engine.tryBegin (engine.afterAll start (allCalls log))).1) :
    Exclusive engine start views (log ++ [(client, .begin)]) := by
  have hlet : ∀ other, other = client →
      Inside (views other) (callsOf (log ++ [(client, .begin)]) other) →
      engine.isOpen (engine.afterAll start (allCalls log)) = false ∧
        engine.isOpen (engine.tryBegin (engine.afterAll start (allCalls log))).2 = true := by
    rintro other rfl hinside
    apply hlawful.begun
    rw [← hanswer, hinside.1]
  have hkept : ∀ other, other ≠ client →
      Inside (views other) (callsOf (log ++ [(client, .begin)]) other) →
        Inside (views other) (callsOf log other) := by
    intro other hother hinside
    rwa [callsOf_concat_of_ne log .begin hother] at hinside
  -- who was inside before keeps the client out
  have hapart : ∀ other, other ≠ client → Inside (views other) (callsOf log other) →
      ¬ Inside (views client) (callsOf (log ++ [(client, .begin)]) client) := by
    intro other hother hinside hbegun
    have hopen := hexclusive.opened other hinside
    rw [(hlet client rfl hbegun).1] at hopen
    cases hopen
  constructor
  · intro other hinside
    rw [allCalls_concat, Engine.afterAll_concat, Engine.after]
    by_cases hother : other = client
    · exact (hlet other hother hinside).2
    · have hopen := hexclusive.opened other (hkept other hother hinside)
      rw [Engine.tryBegin_of_open hopen]
      exact hopen
  · intro first second hfirstInside hsecondInside
    by_cases hfirstSame : first = client
    · by_cases hsecondSame : second = client
      · rw [hfirstSame, hsecondSame]
      · rw [hfirstSame] at hfirstInside
        exact absurd hfirstInside
          (hapart second hsecondSame (hkept second hsecondSame hsecondInside))
    · by_cases hsecondSame : second = client
      · rw [hsecondSame] at hsecondInside
        exact absurd hsecondInside (hapart first hfirstSame (hkept first hfirstSame hfirstInside))
      · exact hexclusive.unique first second (hkept first hfirstSame hfirstInside)
          (hkept second hsecondSame hsecondInside)

/-- A client that is inside executes statements in its open transaction, until it ends it and
no client is inside. -/
theorem Exclusive.called (hlawful : engine.Lawful) (hexclusive : Exclusive engine start views log)
    (hinside : Inside (views client) (callsOf log client)) (hcall : call ≠ .begin) :
    Exclusive engine start views (log ++ [(client, call)]) := by
  have hsame : ∀ other, Inside (views other) (callsOf (log ++ [(client, call)]) other) →
      other = client ∧ call.Executes := by
    intro other hother
    by_cases hne : other = client
    · subst hne
      rw [callsOf_concat_self] at hother
      exact ⟨rfl, (hother.of_concat hcall).2⟩
    · rw [callsOf_concat_of_ne log call hne] at hother
      exact absurd (hexclusive.unique other client hother hinside) hne
  constructor
  · intro other hother
    have hexecutes := (hsame other hother).2
    cases call with
    | execute statement =>
        rw [allCalls_concat, Engine.afterAll_concat, Engine.after, hlawful.executes]
        exact hexclusive.opened client hinside
    | begin => exact absurd rfl hcall
    | commit => cases hexecutes
    | rollback => cases hexecutes
  · intro first second hfirst hsecond
    rw [(hsame first hfirst).1, (hsame second hsecond).1]

/-- Transactions over a store exclude each other, whatever the order of their calls. -/
theorem Interleaves.exclusive (hlawful : engine.Lawful)
    (hwork : ∀ client view, OnlyCalls Call.Executes (work client view))
    (hlog : Interleaves (engine.store start) work views log) :
    Exclusive engine start views log := by
  induction log using List.reverseRecOn with
  | nil =>
      constructor
      · rintro client ⟨-, executed, hcalls, -⟩
        cases hcalls
      · rintro first second ⟨-, executed, hcalls, -⟩
        cases hcalls
  | append_singleton log event ih =>
      obtain ⟨client, call⟩ := event
      have hbefore := ih (hlog.of_prefix (List.prefix_append _ _))
      rcases hlog.next_call hwork with ⟨hfirst, rfl⟩ | ⟨hinside, hcall⟩
      · apply hbefore.begun hlawful hfirst
        have hanswer := hlog.answers log client .begin List.prefix_rfl
        rw [hfirst] at hanswer
        exact hanswer
      · exact hbefore.called hlawful hinside hcall

/-! ## What stands between the calls of a transaction -/

theorem Interleaves.first_begin {store : Connection}
    (hwork : ∀ client view, OnlyCalls Call.Executes (work client view))
    (hlog : Interleaves store work views (before ++ [(client, .begin)])) :
    callsOf before client = [] ∧ (views client).begin [] = store.begin (allCalls before) := by
  have hfirst : callsOf before client = [] := by
    rcases hlog.next_call hwork with ⟨hfirst, -⟩ | ⟨-, hcall⟩
    · exact hfirst
    · exact absurd rfl hcall
  have hanswer := hlog.answers before client .begin List.prefix_rfl
  rw [hfirst] at hanswer
  exact ⟨hfirst, hanswer⟩

/-- A client whose begin was granted is inside until it commits or rolls back. -/
theorem Interleaves.inside {store : Connection}
    (hwork : ∀ client view, OnlyCalls Call.Executes (work client view))
    (hlog : Interleaves store work views (before ++ (client, .begin) :: during))
    (hbegin : store.begin (allCalls before) = .ok ()) (hcommit : (client, .commit) ∉ during)
    (hrollback : (client, .rollback) ∉ during) :
    Inside (views client) (callsOf (before ++ (client, .begin) :: during) client) := by
  have hsplit : before ++ (client, .begin) :: during = before ++ [(client, .begin)] ++ during := by
    simp
  rw [hsplit] at hlog ⊢
  obtain ⟨hfirst, hanswer⟩ := (hlog.of_prefix (List.prefix_append _ _)).first_begin hwork
  obtain ⟨memo, outcome, calls, finish, hmakes, hcalls⟩ := hlog.runs client
  rw [callsOf_append, callsOf_concat_self, hfirst] at hcalls ⊢
  apply inside_of_prefix (hwork client _) hmakes (hanswer.trans hbegin) hcalls
  · exact fun hmem => hcommit (mem_callsOf.mp hmem)
  · exact fun hmem => hrollback (mem_callsOf.mp hmem)

/-- A client whose begin was refused is silent from then on. -/
theorem Interleaves.silent {store : Connection}
    (hwork : ∀ client view, OnlyCalls Call.Executes (work client view))
    (hlog : Interleaves store work views (before ++ (client, .begin) :: during))
    (hrefused : store.begin (allCalls before) ≠ .ok ()) : callsOf during client = [] := by
  have hsplit : before ++ (client, .begin) :: during = before ++ [(client, .begin)] ++ during := by
    simp
  rw [hsplit] at hlog
  obtain ⟨hfirst, hanswer⟩ := (hlog.of_prefix (List.prefix_append _ _)).first_begin hwork
  obtain ⟨memo, outcome, calls, finish, hmakes, hcalls⟩ := hlog.runs client
  rw [callsOf_append, callsOf_concat_self, hfirst] at hcalls
  rcases transaction_course (hwork client _) hmakes with ⟨-, rfl⟩ | ⟨hbegin, -⟩
  · exact List.prefix_nil.mp (List.cons_prefix_cons.mp hcalls).2
  · exact absurd (hanswer.symm.trans hbegin) hrefused

/-- Between a client's begin, when it is granted, and its own commit or rollback, no other
client executes, commits or rolls back: others can only ask to begin, and are refused.  A
client whose begin is not granted makes no other call. -/
theorem transactions_exclude (hlawful : engine.Lawful)
    (hwork : ∀ client view, OnlyCalls Call.Executes (work client view))
    (hlog : Interleaves (engine.store start) work views log) :
    (∀ before client during, before ++ (client, .begin) :: during <+: log →
      (engine.store start).begin (allCalls before) = .ok () →
      (client, .commit) ∉ during → (client, .rollback) ∉ during →
      ∀ first other call, first ++ [(other, call)] <+: during → other ≠ client →
        call = .begin ∧ (engine.store start).begin (allCalls (before ++ (client, .begin) :: first)) =
          .error (.transaction "already in a transaction")) ∧
    ∀ before client after, log = before ++ (client, .begin) :: after →
      (engine.store start).begin (allCalls before) ≠ .ok () →
        ∀ event ∈ after, event.1 ≠ client := by
  constructor
  · intro before client during hduring hbegin hcommit hrollback first other call hfirst hother
    have hcalled : before ++ (client, .begin) :: first ++ [(other, call)] <+: log := by
      rw [List.append_assoc, List.cons_append]
      apply List.IsPrefix.trans _ hduring
      exact (List.prefix_append_right_inj before).mpr (List.cons_prefix_cons.mpr ⟨rfl, hfirst⟩)
    have hbefore : before ++ (client, .begin) :: first <+: log :=
      (List.prefix_append _ _).trans hcalled
    have hsubset : ∀ event ∈ first, event ∈ during :=
      ((List.prefix_append _ _).trans hfirst).subset
    have hinside := (hlog.of_prefix hbefore).inside hwork hbegin
      (fun hmem => hcommit (hsubset _ hmem)) (fun hmem => hrollback (hsubset _ hmem))
    have hexclusive := (hlog.of_prefix hbefore).exclusive hlawful hwork
    rcases (hlog.of_prefix hcalled).next_call hwork with ⟨-, rfl⟩ | ⟨hotherInside, -⟩
    · refine ⟨rfl, ?_⟩
      exact Engine.store_begin_of_open (hexclusive.opened client hinside)
    · exact absurd (hexclusive.unique other client hotherInside hinside) hother
  · rintro before client after rfl hrefused event hevent rfl
    have hcalls := hlog.silent hwork hrefused
    have hmem : event.2 ∈ callsOf after event.1 := mem_callsOf.mpr hevent
    rw [hcalls] at hmem
    cases hmem

/-! ## Two clients of a store of empty tables -/

theorem lawful_emptyTables (isReadOnly : Bool) : (Storage.emptyTables isReadOnly).Lawful where
  begins _ _ := rfl
  executes _ _ := rfl

/-- The deletion of all reviews. -/
def deleteReviews : Sql.Statement :=
  .delete { schema := none, table := "review", condition := none }

/-- The work of a client that deletes all reviews. -/
def deletingReviews (connection : Connection) : Run Outcome :=
  connection.callExecute deleteReviews

theorem deletingReviews_executes (view : Connection) :
    OnlyCalls Call.Executes (deletingReviews view) := by
  rw [deletingReviews, Connection.callExecute]
  exact .record trivial _

/-- The second client asks to begin while the first one is at work. -/
def rivalLog : List (Bool × Call) :=
  [(true, .begin), (false, .begin), (true, .execute deleteReviews), (true, .commit)]

/-- The first client sees a store for itself, the second one a store that is taken. -/
def rivalViews (client : Bool) : Connection :=
  (Storage.emptyTables false).store !client

theorem interleaves_rivalLog : Interleaves (Storage.emptyStore false) (fun _ => deletingReviews)
    rivalViews rivalLog := by
  constructor
  · rintro (_ | _)
    · exact ⟨{}, _, _, _, .transaction_unbegun rfl, List.prefix_rfl⟩
    · have hwork : Makes (deletingReviews (rivalViews true)) (({} : State).called .begin)
          (.ok (.affected 0)) [.execute deleteReviews]
            ((({} : State).called .begin).called (.execute deleteReviews)) := by
        rw [deletingReviews, Connection.callExecute]
        exact .record _ _ _
      exact ⟨{}, _, _, _, hwork.transaction_committed rfl, List.prefix_rfl⟩
  · rintro before client call ⟨rest, hlog⟩
    match before, hlog with
    | [], hlog => cases hlog; rfl
    | [_], hlog => cases hlog; rfl
    | [_, _], hlog => cases hlog; rfl
    | [_, _, _], hlog => cases hlog; rfl
    | _ :: _ :: _ :: _ :: deeper, hlog => simp [rivalLog] at hlog

/-- The first client's transaction is not disturbed, and the second client stays silent. -/
theorem transactions_exclude_rivals :
    (Storage.emptyStore false).begin (allCalls ([] : List (Bool × Call))) = .ok () ∧
      (Storage.emptyStore false).begin (allCalls [(true, .begin)]) ≠ .ok () ∧
      (∀ before client during, before ++ (client, .begin) :: during <+: rivalLog →
        (Storage.emptyStore false).begin (allCalls before) = .ok () →
        (client, .commit) ∉ during → (client, .rollback) ∉ during →
        ∀ first other call, first ++ [(other, call)] <+: during → other ≠ client →
          call = .begin ∧
            (Storage.emptyStore false).begin (allCalls (before ++ (client, .begin) :: first)) =
              .error (.transaction "already in a transaction")) ∧
      ∀ before client after, rivalLog = before ++ (client, .begin) :: after →
        (Storage.emptyStore false).begin (allCalls before) ≠ .ok () →
          ∀ event ∈ after, event.1 ≠ client :=
  ⟨rfl, nofun, transactions_exclude (lawful_emptyTables false)
    (fun _ => deletingReviews_executes) interleaves_rivalLog⟩

end Session

end TreeQuery
