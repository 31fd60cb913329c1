import StoreQuery.Proofs.Grammar.Script
import StoreQuery.Proofs.Parameters
import StoreQuery.Proofs.Sequence
import StoreQuery.Proofs.Token.Tiling
import StoreQuery.Store.Prepared

/-! # The parameters that reading a text registers

Three views of the parameters of a text are the same: those that are registered while it is read,
those among its tokens, and those that its statements mention. Where a text breaks the grammar, the
parameters before the error are registered and no others.
-/

namespace StoreQuery

section Distinct

variable {ns seen acc : List String}

/-- Names are noted the same if those that come twice among them are noted once. -/
theorem foldl_note_foldl :
    (ns.foldl note acc).foldl note seen = ns.foldl note (acc.foldl note seen) := by
  induction ns generalizing acc with
  | nil => rfl
  | cons n ns ih =>
    have hn : (note acc n).foldl note seen = note (acc.foldl note seen) n := by
      rw [note]
      split
      · next h => rw [note, if_pos (mem_foldl_note.2 (Or.inr h))]
      · rw [List.foldl_append, List.foldl_cons, List.foldl_nil]
    rw [List.foldl_cons, ih, hn, List.foldl_cons]

theorem distinct_distinct : distinct (distinct ns) = distinct ns :=
  foldl_note_foldl

theorem distinct_flatMap_distinct {α : Type} {f : α → List String} {as : List α} :
    distinct (as.flatMap fun a => distinct (f a)) = distinct (as.flatMap f) := by
  have hfold : ∀ seen, (as.flatMap fun a => distinct (f a)).foldl note seen =
      (as.flatMap f).foldl note seen := by
    induction as with
    | nil => exact fun _ => rfl
    | cons a as ih =>
      intro seen
      rw [List.flatMap_cons, List.flatMap_cons, List.foldl_append, List.foldl_append, ih,
        distinct_eq_foldl, foldl_note_foldl, List.foldl_nil]
  exact hfold []

theorem distinct_eq_eraseDups : distinct ns = ns.eraseDups := by
  have hloop : ∀ seen : List String,
      List.eraseDupsBy.loop (· == ·) ns seen = ns.foldl note seen.reverse := by
    induction ns with
    | nil => exact fun _ => rfl
    | cons n ns ih =>
      intro seen
      have hany : seen.any (n == ·) = decide (n ∈ seen.reverse) := by
        rw [Bool.eq_iff_iff]
        simp
      rw [List.eraseDupsBy.loop, hany, List.foldl_cons, note]
      by_cases hn : n ∈ seen.reverse
      · rw [if_pos hn, decide_eq_true hn]
        exact ih seen
      · rw [if_neg hn, decide_eq_false hn, ← List.reverse_cons]
        exact ih (n :: seen)
  exact (hloop []).symm

theorem Parameters.names_ofNames : (Parameters.ofNames ns).names = distinct ns := by
  have hadd : ∀ (p : Parameters) n, (p.add n).names = note p.names n :=
    fun _ _ => Parameters.names_add
  have hfold : ∀ p : Parameters, (ns.foldl Parameters.add p).names = ns.foldl note p.names := by
    induction ns with
    | nil => exact fun _ => rfl
    | cons n ns ih =>
      intro p
      rw [List.foldl_cons, ih, hadd, List.foldl_cons]
  exact hfold .empty

end Distinct

namespace Grammar

section Run

variable {α : Type} {rule : Nat → Rule α} {text : String} {c d : Cursor}
  {passed rest : List Lexeme}

theorem parametersOf_map_token (ls : List Lexeme) :
    parametersOf (ls.map Lexeme.token) = ls.filterMap fun l => l.token.parameter? := by
  rw [parametersOf, List.filterMap_map]
  rfl

theorem stop_le_start_of_passed
    (horder : (passed ++ c.rest).Pairwise fun l m => l.span.stop ≤ m.span.start)
    (hspan : ∀ l ∈ passed ++ c.rest, l.span.start < l.span.stop)
    (hplace : c.place = (passed.getLast?.map fun l => l.span.stop).getD d.place) :
    ∀ l ∈ passed, l.span.stop ≤ c.span.start := by
  intro l hl
  rw [Cursor.span]
  split
  · next hrest =>
    obtain ⟨init, m, rfl⟩ : ∃ init m, passed = init ++ [m] :=
      (List.eq_nil_or_concat' passed).resolve_left (List.ne_nil_of_mem hl)
    have hstop : c.place = m.span.stop := by rw [hplace, List.getLast?_concat]; rfl
    rw [Span.point, hstop]
    rcases List.mem_append.1 hl with hinit | hm
    · have hle := (List.pairwise_append.1 (List.pairwise_append.1 horder).1).2.2 l hinit m
        (List.mem_singleton_self m)
      have := hspan m (by simp)
      dsimp only
      omega
    · rw [List.mem_singleton.1 hm]
  · next l' rest hrest =>
    exact (List.pairwise_append.1 horder).2.2 l hl l' (by rw [hrest]; exact List.mem_cons_self)

theorem start_le_start_of_left (horder : c.rest.Pairwise fun l m => l.span.stop ≤ m.span.start)
    (hspan : ∀ l ∈ c.rest, l.span.start < l.span.stop) :
    ∀ l ∈ c.rest, c.span.start ≤ l.span.start := by
  intro l hl
  rw [Cursor.span]
  split
  · next hrest =>
    rw [hrest] at hl
    cases hl
  · next l' rest hrest =>
    have hl' := hspan l' (by rw [hrest]; exact List.mem_cons_self)
    rw [hrest] at horder hl
    rcases List.mem_cons.1 hl with rfl | hmem
    · exact Nat.le_refl _
    · exact Nat.le_trans (Nat.le_of_lt hl') (List.rel_of_pairwise_cons horder hmem)

/-- The tokens that a rule passes before it breaks off are those that end before the error. -/
theorem filter_scan_of_leads (h : (Cursor.start (Lexeme.scan text)).Leads c) :
    c.mentioned = parametersOf
      (((Lexeme.scan text).filter fun l => l.span.stop ≤ c.span.start).map Lexeme.token) := by
  have htiles := Lexeme.tiles_scan text
  obtain ⟨passed, hscan, hmentioned, hplace, -⟩ := h.exists_passed
  replace hscan : Lexeme.scan text = passed ++ c.rest := hscan
  have horder := htiles.pairwise
  have hspan : ∀ l ∈ Lexeme.scan text, l.span.start < l.span.stop :=
    fun l hl => htiles.start_lt_stop hl
  rw [hscan] at horder hspan
  have hpassed : passed.filter (fun l => l.span.stop ≤ c.span.start) = passed :=
    List.filter_eq_self.2 fun l hl =>
      decide_eq_true (stop_le_start_of_passed horder hspan hplace l hl)
  have hleft : c.rest.filter (fun l => l.span.stop ≤ c.span.start) = [] := by
    apply List.filter_eq_nil_iff.2
    intro l hl
    have hstart := start_le_start_of_left (List.pairwise_append.1 horder).2.1
      (fun l hl => hspan l (List.mem_append_right _ hl)) l hl
    have hl' := hspan l (List.mem_append_right _ hl)
    rw [decide_eq_true_eq]
    omega
  rw [hscan, List.filter_append, hpassed, hleft, List.append_nil, parametersOf_map_token,
    hmentioned]
  rfl

/-- A rule that breaks off has registered the parameters that end before its error. -/
theorem parameters_of_refused (hrule : ∀ depth c, Notes (rule depth) c) {e : GrammarError}
    (h : (Rule.run rule text).result = .error (.grammar e)) :
    (Rule.run rule text).parameters =
      distinct (parametersOf (((Lexeme.scan text).filter fun l =>
        l.span.stop ≤ e.span.start).map Lexeme.token)) := by
  unfold Rule.run at *
  dsimp only at *
  split at h
  · cases h
  · next c hfailed =>
    cases h
    have hnotes := hrule (nesting (Lexeme.scan text)) (.start (Lexeme.scan text))
    have hleads := hnotes.leads c (by rw [hfailed, Reply.cursor?])
    rw [(hnotes.placed e c hfailed).span_eq]
    exact congrArg distinct (filter_scan_of_leads hleads)
  · -- Nothing was registered, and no token ends where the text begins.
    cases h
    have hnone : (Lexeme.scan text).filter (fun l => decide (l.span.stop ≤ 0)) = [] := by
      apply List.filter_eq_nil_iff.2
      intro l hl
      have := (Lexeme.tiles_scan text).start_lt_stop hl
      rw [decide_eq_true_eq]
      omega
    rw [Span.point, hnone]
    rfl

theorem mentioned_of_leads (h : (Cursor.start (Lexeme.scan text)).Leads c) (hc : c.tokens = []) :
    c.mentioned = parametersOf (Lexeme.tokens text.toList) := by
  obtain ⟨passed, hscan, hmentioned, -⟩ := h.exists_passed
  replace hscan : Lexeme.scan text = passed ++ c.rest := hscan
  rw [List.map_eq_nil_iff.1 hc, List.append_nil] at hscan
  rw [← Lexeme.map_token_scan, hscan, parametersOf_map_token, hmentioned]
  rfl

end Run

theorem mentions_of_isScript {ts : List Token} {ss : List Statement} (h : IsScript ts ss) :
    parametersOf ts = ss.flatMap Statement.mentions := by
  induction h with
  | nil => rfl
  | semicolon _ ih => rw [parametersOf_cons, ih]; rfl
  | statement hs _ _ ih =>
    rw [parametersOf_append, ih, List.flatMap_cons]
    exact congrArg (· ++ _) (mentions_of_produces hs)

theorem parameters_parseScript {text : String} {ss : List Statement}
    (h : (parseScript text).result = .ok ss) :
    (parseScript text).parameters = distinct (parametersOf (Lexeme.tokens text.toList)) := by
  unfold parseScript Rule.run at *
  dsimp only at *
  split at h
  · next c hdone =>
    cases h
    have hleads := (notes_script _ _).leads c (by rw [hdone, Reply.cursor?])
    have hstart : (Cursor.start (Lexeme.scan text)).tokens = Lexeme.tokens text.toList :=
      Lexeme.map_token_scan text
    have hend := isScript_of_scriptUpTo (by rw [hstart]; exact eof_not_mem_tokens _) hdone
    exact congrArg distinct (mentioned_of_leads hleads hend.2)
  · cases h
  · cases h

theorem mentions_of_parseStatement {text : String} {s : Statement}
    (h : (parseStatement text).result = .ok s) :
    parametersOf (Lexeme.tokens text.toList) = s.mentions :=
  mentions_of_produces (produces_of_parseStatement h)

def Reading.grammarError? {α : Type} (r : Reading α) : Option GrammarError :=
  match r.result with
  | .error (.grammar e) => some e
  | _ => none

theorem Reading.grammarError?_eq_some {α : Type} {r : Reading α} {e : GrammarError} :
    r.grammarError? = some e ↔ r.result = .error (.grammar e) := by
  rw [grammarError?]
  split
  · next heq => rw [heq, Option.some_inj, Except.error.injEq, QueryError.grammar.injEq]
  · next hne => exact ⟨nofun, fun h => absurd h (hne e)⟩

/-- The parameters that are registered while a text is read. Of a statement they are the parameters
among its tokens, each where it first stands, and those that the statement mentions, so that it does
not matter whether the text or the statement is prepared. Of a script they are those of its
statements. Where the grammar is broken they are the parameters among the tokens that end at the
error or before it. -/
theorem registered_parameters (text : String) :
    (∀ s, (parseStatement text).result = .ok s →
      (parseStatement text).parameters =
        (parametersOf ((Lexeme.scan text).map Lexeme.token)).eraseDups ∧
      (parseStatement text).parameters = s.parameters ∧
      Prepared.ofText text = .ok (.ofStatement s) ∧
      (Prepared.ofStatement s).parameters.names = s.parameters) ∧
    (∀ ss, (parseScript text).result = .ok ss →
      (parseScript text).parameters = (ss.flatMap Statement.parameters).eraseDups) ∧
    (∀ e, (parseStatement text).result = .error (.grammar e) →
      (parseStatement text).parameters =
        (parametersOf (((Lexeme.scan text).filter fun l =>
          l.span.stop ≤ e.span.start).map Lexeme.token)).eraseDups) ∧
    (∀ e, (parseScript text).result = .error (.grammar e) →
      (parseScript text).parameters =
        (parametersOf (((Lexeme.scan text).filter fun l =>
          l.span.stop ≤ e.span.start).map Lexeme.token)).eraseDups) := by
  simp only [← distinct_eq_eraseDups]
  refine ⟨?_, ?_, fun e h => parameters_of_refused notes_statement h,
    fun e h => parameters_of_refused notes_script h⟩
  · intro s h
    have hparameters := parameters_parseStatement h
    refine ⟨?_, hparameters, ?_, ?_⟩
    · rw [hparameters, Lexeme.map_token_scan, mentions_of_parseStatement h]
      rfl
    · rw [Prepared.ofText, h, hparameters]
      rfl
    · exact Parameters.names_ofNames.trans distinct_distinct
  · intro ss h
    rw [parameters_parseScript h, mentions_of_isScript (parseScript_iff.1 h)]
    exact distinct_flatMap_distinct.symm

/-- A parameter of a nested select, one that two statements of a script share, and a text that is
broken between two parameters. -/
theorem registered_parameters_nested :
    let text := "select * from T where a = @y or b in (select c from U where d between @x and @y)"
    let script := "get @k; del @j, @k"
    let broken := "select * from T where a = @y, b = @x"
    (∃ s, (parseStatement text).result = .ok s ∧ s.parameters = ["y", "x"] ∧
      Prepared.ofText text = .ok (.ofStatement s) ∧
      (Prepared.ofStatement s).parameters.names = ["y", "x"]) ∧
    (∃ ss, (parseScript script).result = .ok ss ∧
      (ss.flatMap Statement.parameters).eraseDups = ["k", "j"]) ∧
    ∃ e, (parseStatement broken).result = .error (.grammar e) ∧
      (parametersOf (((Lexeme.scan broken).filter fun l =>
        l.span.stop ≤ e.span.start).map Lexeme.token)).eraseDups = ["y"] := by
  intro text script broken
  refine ⟨?_, ?_, ?_⟩
  · obtain ⟨hparameters, -⟩ := registered_parameters text
    obtain ⟨s, hs⟩ : ∃ s, (parseStatement text).result = .ok s :=
      exists_ok_of_toOption (by decide +kernel)
    obtain ⟨-, hmentions, hprepared, hnames⟩ := hparameters s hs
    have hregistered : (parseStatement text).parameters = ["y", "x"] := by decide +kernel
    rw [hmentions] at hregistered
    exact ⟨s, hs, hregistered, hprepared, hnames.trans hregistered⟩
  · obtain ⟨-, hparameters, -⟩ := registered_parameters script
    obtain ⟨ss, hss⟩ : ∃ ss, (parseScript script).result = .ok ss :=
      exists_ok_of_toOption (by decide +kernel)
    have hregistered : (parseScript script).parameters = ["k", "j"] := by decide +kernel
    exact ⟨ss, hss, (hparameters ss hss).symm.trans hregistered⟩
  · obtain ⟨-, -, hparameters, -⟩ := registered_parameters broken
    obtain ⟨e, he⟩ : ∃ e, (parseStatement broken).grammarError? = some e :=
      Option.isSome_iff_exists.1 (by decide +kernel)
    have hfails := Reading.grammarError?_eq_some.1 he
    have hregistered : (parseStatement broken).parameters = ["y"] := by decide +kernel
    exact ⟨e, hfails, (hparameters e hfails).symm.trans hregistered⟩

end Grammar

end StoreQuery
