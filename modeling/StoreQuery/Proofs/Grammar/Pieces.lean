import StoreQuery.Proofs.CommandLine.Formatting
import StoreQuery.Proofs.Token.Piece

/-! # Scripts and their statements

No statement has a semicolon among its tokens. So a script falls into its statements where its
semicolons stand, each piece being the text of one of them, and canonical texts with semicolons
between them are a script of what they stand for.
-/

namespace StoreQuery

open Text

def Token.isInner : Token → Bool
  | symbol .semicolon | invalid _ => false
  | _ => true

theorem Token.isInvalid_of_isInner {t : Token} (h : t.isInner = true) : t.isInvalid = false := by
  cases t with
  | invalid => cases h
  | _ => rfl

namespace Grammar

/-- Whether no semicolon belongs to a nonterminal. -/
def Nonterminal.isInner : Nonterminal → Bool
  | statement => false
  | more item => item.isInner
  | _ => true

theorem isInner_of_comparison? {t : Token} {c : Comparison} (h : comparison? t = some c) :
    t.isInner = true := by
  unfold comparison? at h
  split at h <;> first | rfl | cases h

/-- No semicolon belongs to such a nonterminal, and nothing invalid does. -/
theorem Derives.forall_isInner {single : Operand → Prop} {n : Nonterminal} {ts : List Token}
    {a : n.Result} (h : Derives single n ts a) (hn : n.isInner = true) :
    ∀ t ∈ ts, t.isInner = true := by
  induction h with
  | statement | terminated => cases hn
  | compare h _ ih => exact List.forall_mem_cons.2 ⟨isInner_of_comparison? h, ih rfl⟩
  | @linksCons o =>
    cases o <;> simp_all [Nonterminal.isInner, Connective.token, Token.isInner, or_imp]
  | _ => simp_all [Nonterminal.isInner, Token.isInner, or_imp]

theorem Derives.semicolon_not_mem {single : Operand → Prop} {n : Nonterminal} {ts : List Token}
    {a : n.Result} (h : Derives single n ts a) (hn : n.isInner = true) :
    Token.symbol .semicolon ∉ ts := by
  intro hmem
  have hinner := h.forall_isInner hn _ hmem
  cases hinner

variable {text : String} {s : Statement} {ss : List Statement} {ts us : List Token}
  {ls : List Lexeme}

section Splitting

/-- What stands between the semicolons of a text, where anything does. -/
def pieces (ls : List Lexeme) : List (List Lexeme) :=
  (ls.splitOnP fun l => l.token = .symbol .semicolon).filter fun piece => !piece.isEmpty

theorem pieces_semicolon {l : Lexeme} (hl : l.token = .symbol .semicolon) :
    pieces (l :: ls) = pieces ls := by
  have hsplit : (l :: ls).splitOnP (fun l => l.token = .symbol .semicolon) =
      [] :: ls.splitOnP fun l => l.token = .symbol .semicolon :=
    List.splitOnP_append_cons_of_forall_mem (List.forall_mem_nil _) l (by simpa using hl) ls
  rw [pieces, hsplit]
  rfl

theorem pieces_append {ms : List Lexeme} (hls : ∀ l ∈ ls, l.token ≠ .symbol .semicolon)
    (hne : ls ≠ []) (hms : ∀ m ∈ ms.head?, m.token = .symbol .semicolon) :
    pieces (ls ++ ms) = ls :: pieces ms := by
  have hkeep : ∀ rest, (ls :: rest).filter (fun piece => !piece.isEmpty) =
      ls :: rest.filter fun piece => !piece.isEmpty :=
    fun rest => List.filter_cons_of_pos (by simpa using hne)
  cases ms with
  | nil =>
    rw [List.append_nil, pieces, List.splitOnP_eq_singleton (by simpa using hls), hkeep]
    rfl
  | cons m ms =>
    have hm := hms m rfl
    rw [pieces_semicolon hm, pieces,
      List.splitOnP_append_cons_of_forall_mem (by simpa using hls) m (by simpa using hm), hkeep,
      pieces]

/-- The pieces of a script are its statements. -/
theorem IsScript.forall₂_pieces (heof : ∀ l ∈ ls, l.token ≠ .eof)
    (h : IsScript (ls.map Lexeme.token) ss) :
    List.Forall₂ (fun piece s => piece <:+: ls ∧ Produces .body (piece.map Lexeme.token) s)
      (pieces ls) ss := by
  generalize hts : ls.map Lexeme.token = ts at h
  induction h generalizing ls with
  | nil =>
    rw [List.map_eq_nil_iff.1 hts]
    exact .nil
  | semicolon _ ih =>
    obtain ⟨l, ls, rfl, hl, hls⟩ := List.map_eq_cons_iff.1 hts
    rw [List.forall_mem_cons] at heof
    rw [pieces_semicolon hl]
    refine (ih heof.2 hls).imp ?_
    rintro piece s ⟨hpiece, hs⟩
    exact ⟨hpiece.trans (List.suffix_cons l ls).isInfix, hs⟩
  | @statement ts us s ss hs hus _ ih =>
    obtain ⟨ls, ms, rfl, rfl, rfl⟩ := List.map_eq_append_iff.1 hts
    rw [List.forall_mem_append] at heof
    have hinner : ∀ l ∈ ls, l.token ≠ .symbol .semicolon := fun l hl heq =>
      hs.semicolon_not_mem rfl (heq ▸ List.mem_map_of_mem hl)
    have hne : ls ≠ [] := by
      rintro rfl
      obtain ⟨_, _, ⟨⟩, -⟩ := exists_front_body hs
    have hms : ∀ m ∈ ms.head?, m.token = .symbol .semicolon := by
      cases ms with
      | nil => nofun
      | cons m ms =>
        rintro _ ⟨⟩
        exact hus.resolve_right (heof.2 m List.mem_cons_self)
    rw [pieces_append hinner hne hms]
    refine .cons ⟨(List.prefix_append ..).isInfix, hs⟩ ((ih heof.2 rfl).imp ?_)
    rintro piece s ⟨hpiece, hs⟩
    exact ⟨hpiece.trans (List.suffix_append ..).isInfix, hs⟩

end Splitting

section Joining

variable {rows : List (Statement × Nat)}

def rowsText (rows : List (Statement × Nat)) : List Char :=
  rows.flatMap fun (s, n) => s.render.toList ++ List.replicate n ';'

/-- The canonical texts of statements with semicolons before them, between them and behind them. -/
def joinText (lead : Nat) (rows : List (Statement × Nat)) : String :=
  String.ofList (List.replicate lead ';' ++ rowsText rows)

theorem closes_semicolons (n : Nat) :
    Closes (List.replicate n ';') (List.replicate n (.symbol .semicolon)) := by
  induction n with
  | zero => exact .nil
  | succ n ih =>
    rw [List.replicate_succ, List.replicate_succ]
    exact (Closes.mark (s := .semicolon) rfl).append ih

theorem IsScript.semicolons (h : IsScript ts ss) (n : Nat) :
    IsScript (List.replicate n (.symbol .semicolon) ++ ts) ss := by
  induction n with
  | zero => exact h
  | succ n ih => exact .semicolon ih

theorem exists_writes_rows (hrows : ∀ r ∈ rows, r.1.Readable)
    (hsep : ∀ r ∈ rows.dropLast, 0 < r.2) :
    ∃ ts, Writes (rowsText rows) ts ∧ IsScript ts (rows.map Prod.fst) := by
  induction rows with
  | nil => exact ⟨[], .nil, .nil⟩
  | cons r rows ih =>
    obtain ⟨s, n⟩ := r
    rw [List.forall_mem_cons] at hrows
    obtain ⟨hs, hrows⟩ := hrows
    cases n with
    | zero =>
      -- Only behind the last statement there may be no semicolon.
      obtain rfl : rows = [] := by
        cases rows with
        | nil => rfl
        | cons r rows => exact absurd (hsep (s, 0) List.mem_cons_self) (Nat.lt_irrefl 0)
      refine ⟨s.tokens, ?_, ?_⟩
      · simpa [rowsText] using hs.writes
      · simpa using IsScript.statement hs.produces (.inr rfl) .nil
    | succ n =>
      have hbehind : ∀ r ∈ rows.dropLast, 0 < r.2 := by
        intro r hr
        cases rows with
        | nil => cases hr
        | cons r' rows => exact hsep r (List.mem_cons_of_mem _ hr)
      obtain ⟨ts, hts, hscript⟩ := ih hrows hbehind
      have hcloses := hs.writes.append_closes (closes_semicolons (n + 1)) rfl (by simp)
      refine ⟨_, hcloses.append_writes hts, ?_⟩
      rw [List.append_assoc]
      exact .statement hs.produces (.inl rfl) (hscript.semicolons (n + 1))

theorem parseScript_joinText (lead : Nat) (hrows : ∀ r ∈ rows, r.1.Readable)
    (hsep : ∀ r ∈ rows.dropLast, 0 < r.2) :
    (parseScript (joinText lead rows)).result = .ok (rows.map Prod.fst) := by
  obtain ⟨ts, hts, hscript⟩ := exists_writes_rows hrows hsep
  rw [parseScript_iff, joinText, String.toList_ofList,
    ((closes_semicolons lead).append_writes hts).tokens_eq]
  exact hscript.semicolons lead

end Joining

theorem isScript_of_produces (h : Produces .statement ts s) : IsScript ts [s] := by
  cases h with
  | statement body => simpa using IsScript.statement body (.inr rfl) .nil
  | terminated body => exact .statement body (.inl rfl) (.semicolon .nil)

def pieceText (text : String) (piece : List Lexeme) : String :=
  String.ofList ((Lexeme.cover piece).text text.toList)

theorem parseStatement_pieceText {piece : List Lexeme} (hpiece : piece <:+: Lexeme.scan text)
    (hs : Produces .body (piece.map Lexeme.token) s) :
    (parseStatement (pieceText text piece)).result = .ok s := by
  apply parseStatement_of_produces
  rw [pieceText, String.toList_ofList, Lexeme.tokens_cover hpiece]
  exact .statement hs

/-- Scripts are composed of statements. Canonical texts with semicolons between them are a script of
what they stand for; a text of one statement is a script of this statement; and every script falls
at its semicolons into pieces, which are texts of its statements. -/
theorem scripts_compose :
    (∀ lead rows,
      (∀ r ∈ rows, ∃ text, (parseStatement text).result = .ok r.1 ∨
        ∃ ss, (parseScript text).result = .ok ss ∧ r.1 ∈ ss) →
      (∀ r ∈ rows.dropLast, 0 < r.2) →
      (parseScript (joinText lead rows)).result = .ok (rows.map Prod.fst)) ∧
    (∀ text s, (parseStatement text).result = .ok s → (parseScript text).result = .ok [s]) ∧
    ∀ text ss, (parseScript text).result = .ok ss →
      List.Forall₂ (fun piece s => (parseStatement (pieceText text piece)).result = .ok s)
        (pieces (Lexeme.scan text)) ss := by
  refine ⟨?join, ?single, ?split⟩
  case join =>
    intro lead rows hrows hsep
    refine parseScript_joinText lead (fun r hr => ?_) hsep
    obtain ⟨text, htext | ⟨ss, hss, hmem⟩⟩ := hrows r hr
    · exact readable_of_parseStatement htext
    · exact readable_of_parseScript hss r.1 hmem
  case single =>
    exact fun text s h => parseScript_iff.2 (isScript_of_produces (produces_of_parseStatement h))
  case split =>
    intro text ss h
    have hscript := parseScript_iff.1 h
    rw [← Lexeme.map_token_scan] at hscript
    refine (hscript.forall₂_pieces fun l => Lexeme.ne_eof_of_mem_scan).imp ?_
    rintro piece s ⟨hpiece, hs⟩
    exact parseStatement_pieceText hpiece hs

theorem scripts_compose_pair :
    let s : Statement := .get [.literal (.int 1)]
    let t : Statement := .del [.parameter "k"]
    let text := ";;get 1;;;del @k"
    (parseStatement "get 1").result = .ok s ∧ (parseScript "get 1").result = .ok [s] ∧
      (parseScript text).result = .ok [s, t] ∧
      List.Forall₂ (fun piece s => (parseStatement (pieceText text piece)).result = .ok s)
        (pieces (Lexeme.scan text)) [s, t] := by
  intro s t text
  have hrender : s.render = "get 1" ∧ t.render = "del @k" ∧ joinText 2 [(s, 3), (t, 0)] = text := by
    decide +kernel
  have hs : (parseStatement "get 1").result = .ok s := by
    rw [← hrender.1]
    exact parseStatement_of_readable ⟨nofun, List.forall_mem_singleton.2 trivial⟩
  have ht : (parseStatement "del @k").result = .ok t := by
    rw [← hrender.2.1]
    refine parseStatement_of_readable ⟨nofun, List.forall_mem_singleton.2 ?_⟩
    exact show Name.isDotted true _ = true by decide
  have hrows : ∀ r ∈ [(s, 3), (t, 0)], ∃ text, (parseStatement text).result = .ok r.1 ∨
      ∃ ss, (parseScript text).result = .ok ss ∧ r.1 ∈ ss :=
    List.forall_mem_cons.2 ⟨⟨_, .inl hs⟩, List.forall_mem_singleton.2 ⟨_, .inl ht⟩⟩
  obtain ⟨hjoin, hsingle, hsplit⟩ := scripts_compose
  have htext : (parseScript text).result = .ok [s, t] := by
    rw [← hrender.2.2]
    exact hjoin 2 _ hrows (List.forall_mem_singleton.2 (by decide))
  exact ⟨hs, hsingle _ s hs, htext, hsplit text [s, t] htext⟩

end Grammar

end StoreQuery
