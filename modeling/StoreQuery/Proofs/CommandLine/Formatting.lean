import StoreQuery.CommandLine.Run
import StoreQuery.Proofs.Grammar.Script
import StoreQuery.Proofs.Query.Canonical

/-! # Formatted scripts

A script is formatted to the canonical texts of its statements, one after the other. Nothing but a
line break stands between them, so that the formatted text is a script only if there is at most one
of them. With a semicolon before each line break it is a script of the same statements.
-/

namespace StoreQuery

open Grammar CommandLine

variable {text stop : String} {s : Statement} {ss : List Statement} {ts us : List Token}

namespace Statement

def tokens (s : Statement) : List Token :=
  Lexeme.tokens s.render.toList

theorem Readable.writes (h : s.Readable) : Writes s.render.toList s.tokens := by
  obtain ⟨ts, hts, -⟩ := s.spells h
  rwa [tokens, hts.tokens_eq]

theorem Readable.produces (h : s.Readable) : Produces .body s.tokens s := by
  obtain ⟨ts, hts, hs⟩ := s.spells h
  rwa [tokens, hts.tokens_eq]

def renderAll (stop : String) (ss : List Statement) : String :=
  String.join (ss.map fun s => s.render ++ stop)

theorem toList_renderAll_cons :
    (renderAll stop (s :: ss)).toList =
      s.render.toList ++ stop.toList ++ (renderAll stop ss).toList := by
  rw [renderAll, List.map_cons, String.join_cons, String.toList_append, String.toList_append]
  rfl

theorem closes_renderAll (hclose : Closes stop.toList us) (hstops : Token.stops stop.toList = true)
    (hne : stop.toList ≠ []) (h : ∀ s ∈ ss, s.Readable) :
    Closes (renderAll stop ss).toList (ss.flatMap fun s => s.tokens ++ us) := by
  induction ss with
  | nil => exact .nil
  | cons s ss ih =>
    rw [List.forall_mem_cons] at h
    rw [toList_renderAll_cons, List.flatMap_cons]
    exact (h.1.writes.append_closes hclose hstops hne).append (ih h.2)

theorem tokens_renderAll_lines (h : ∀ s ∈ ss, s.Readable) :
    Lexeme.tokens (renderAll "\n" ss).toList = ss.flatMap tokens := by
  have hclose : Closes "\n".toList [] := Lexeme.tokens_of_isBlank (by decide)
  simpa using (closes_renderAll hclose rfl nofun h).writes.tokens_eq

theorem tokens_renderAll_semicolons (h : ∀ s ∈ ss, s.Readable) :
    Lexeme.tokens (renderAll ";\n" ss).toList =
      ss.flatMap fun s => s.tokens ++ [.symbol .semicolon] := by
  have hclose : Closes ";\n".toList [.symbol .semicolon] :=
    (Closes.mark (s := .semicolon) rfl).append (Lexeme.tokens_of_isBlank (by decide))
  exact (closes_renderAll hclose rfl nofun h).writes.tokens_eq

end Statement

namespace Grammar

open Statement

theorem IsScript.readable (h : IsScript ts ss) (hts : ∀ t ∈ ts, t.IsRead) :
    ∀ s ∈ ss, s.Readable := by
  induction h with
  | nil => nofun
  | semicolon _ ih => exact ih (List.forall_mem_cons.1 hts).2
  | statement hs _ _ ih =>
    rw [List.forall_mem_append] at hts
    exact List.forall_mem_cons.2 ⟨isReadable_of_produces hs hts.1, ih hts.2⟩

theorem readable_of_parseScript (h : (parseScript text).result = .ok ss) : ∀ s ∈ ss, s.Readable :=
  (parseScript_iff.1 h).readable fun _ ht => Lexeme.isRead_of_mem_tokens ht

theorem isScript_semicolons (h : ∀ s ∈ ss, s.Readable) :
    IsScript (ss.flatMap fun s => s.tokens ++ [.symbol .semicolon]) ss := by
  induction ss with
  | nil => exact .nil
  | cons s ss ih =>
    rw [List.forall_mem_cons] at h
    rw [List.flatMap_cons, List.append_assoc]
    exact .statement h.1.produces (.inl rfl) (.semicolon (ih h.2))

theorem parseScript_semicolons (h : ∀ s ∈ ss, s.Readable) :
    (parseScript (renderAll ";\n" ss)).result = .ok ss := by
  rw [parseScript_iff, tokens_renderAll_semicolons h]
  exact isScript_semicolons h

theorem parseScript_line (hlength : ss.length ≤ 1) (h : ∀ s ∈ ss, s.Readable) :
    (parseScript (renderAll "\n" ss)).result = .ok ss := by
  rw [parseScript_iff, tokens_renderAll_lines h]
  match ss with
  | [] => exact .nil
  | [s] => exact .statement (h s List.mem_cons_self).produces (.inr rfl) .nil

/-- Of several canonical texts without semicolons the second one is at fault. -/
theorem parseScript_lines {s₁ s₂ : Statement} (h : ∀ s ∈ s₁ :: s₂ :: ss, s.Readable) :
    ∃ l, (Lexeme.scan (renderAll "\n" (s₁ :: s₂ :: ss)))[s₁.tokens.length]? = some l ∧
      l.token = front s₂.tokens ∧
      (parseScript (renderAll "\n" (s₁ :: s₂ :: ss))).result =
        .error (.grammar ⟨.unexpected .separator l.token, l.span⟩) := by
  have htokens := tokens_renderAll_lines h
  rw [List.flatMap_cons, List.flatMap_cons] at htokens
  rw [List.forall_mem_cons, List.forall_mem_cons] at h
  obtain ⟨t, ts, hts, ht⟩ := exists_front_body h.2.1.produces
  obtain ⟨l, hl, hresult⟩ :=
    parseScript_of_unseparated htokens h.1.produces (by rw [hts]; exact ht)
  refine ⟨l, hl, ?_, hresult⟩
  have htoken := congrArg (·[s₁.tokens.length]?) htokens
  rw [← Lexeme.map_token_scan] at htoken
  simp only [List.getElem?_map, hl, Option.map_some, hts, List.cons_append,
    List.getElem?_append_right (Nat.le_refl _), Nat.sub_self, List.getElem?_cons_zero] at htoken
  rw [hts]
  exact Option.some.inj htoken

end Grammar

namespace CommandLine

open Statement

theorem Command.run_format (h : (parseScript text).result = .ok ss) :
    Command.format.run text = .ok (renderAll "\n" ss) := by
  rw [Command.run, h]
  rfl

theorem Command.run_of_refused {c : Command} {e : QueryError}
    (h : (parseScript text).result = .error e) : c.run text = .error (.refused text e) := by
  rw [Command.run, h]

/-- A script is formatted to the lines of its statements. If there is at most one of them, it is a
script of the same statements again, and formatted to itself. If there are more, it is not a script:
the first token of the second statement is at fault, where a semicolon is missing. With semicolons
the lines are a script of the same statements. -/
theorem formatted_script (h : (parseScript text).result = .ok ss) :
    Command.format.run text = .ok (renderAll "\n" ss) ∧
    (ss.length ≤ 1 → (parseScript (renderAll "\n" ss)).result = .ok ss ∧
      Command.format.run (renderAll "\n" ss) = .ok (renderAll "\n" ss)) ∧
    (∀ s₁ s₂ rest, ss = s₁ :: s₂ :: rest →
      ∃ l e, (Lexeme.scan (renderAll "\n" ss))[s₁.tokens.length]? = some l ∧
        l.token = front s₂.tokens ∧ e = .grammar ⟨.unexpected .separator l.token, l.span⟩ ∧
        (parseScript (renderAll "\n" ss)).result = .error e ∧
        Command.format.run (renderAll "\n" ss) = .error (.refused (renderAll "\n" ss) e)) ∧
    (parseScript (renderAll ";\n" ss)).result = .ok ss ∧
      Command.format.run (renderAll ";\n" ss) = .ok (renderAll "\n" ss) := by
  have hreadable := readable_of_parseScript h
  have hsemicolons := parseScript_semicolons hreadable
  refine ⟨Command.run_format h, fun hlength => ?_, ?_, hsemicolons, Command.run_format hsemicolons⟩
  · have hline := parseScript_line hlength hreadable
    exact ⟨hline, Command.run_format hline⟩
  · rintro s₁ s₂ rest rfl
    obtain ⟨l, hl, htoken, hresult⟩ := parseScript_lines hreadable
    exact ⟨l, _, hl, htoken, rfl, hresult, Command.run_of_refused hresult⟩

theorem formatted_script_pair :
    ∃ s₁ s₂, (parseScript "GET 1, @k; DEL 'a';").result = .ok [s₁, s₂] ∧
      Command.format.run "GET 1, @k; DEL 'a';" = .ok (renderAll "\n" [s₁, s₂]) ∧
      renderAll "\n" [s₁, s₂] = "get 1, @k\ndel \"a\"\n" ∧
      (∃ l : Lexeme, l.token = front s₂.tokens ∧
        (parseScript (renderAll "\n" [s₁, s₂])).result =
          .error (.grammar ⟨.unexpected .separator l.token, l.span⟩)) ∧
      (parseScript (renderAll ";\n" [s₁, s₂])).result = .ok [s₁, s₂] := by
  have hscript : (parseScript "GET 1, @k; DEL 'a';").result.toOption.map
      (fun ss => (ss.length, renderAll "\n" ss)) = some (2, "get 1, @k\ndel \"a\"\n") := by
    decide +kernel
  cases h : (parseScript "GET 1, @k; DEL 'a';").result with
  | error => rw [h] at hscript; cases hscript
  | ok ss =>
    rw [h] at hscript
    obtain ⟨hlength, hrender⟩ := Prod.mk.inj (Option.some.inj hscript)
    obtain ⟨s₁, s₂, rfl⟩ := List.length_eq_two.1 hlength
    obtain ⟨hrun, -, hlines, hsemicolons, -⟩ := formatted_script h
    obtain ⟨l, e, -, htoken, rfl, hresult, -⟩ := hlines s₁ s₂ [] rfl
    exact ⟨s₁, s₂, rfl, hrun, hrender, ⟨l, htoken, hresult⟩, hsemicolons⟩

/-- What a script of two statements is formatted to is no script. -/
theorem not_formatted_script_reads :
    ¬∀ text ss out, (parseScript text).result = .ok ss → Command.format.run text = .ok out →
      (parseScript out).result = .ok ss ∧ Command.format.run out = .ok out := by
  intro h
  have hrun : (Command.format.run "get 1; get 2").toOption = some "get 1\nget 2\n" := by
    decide +kernel
  have hfails : (parseScript "get 1\nget 2\n").result.isOk = false := by decide +kernel
  cases hscript : (parseScript "get 1; get 2").result with
  | error => rw [Command.run_of_refused hscript] at hrun; cases hrun
  | ok ss =>
    have hformat := Command.run_format hscript
    rw [hformat] at hrun
    rw [(h _ _ _ hscript (hformat.trans (congrArg _ (Option.some.inj hrun)))).1] at hfails
    cases hfails

end CommandLine

end StoreQuery
