import StoreQuery.Grammar.Cursor
import StoreQuery.Proofs.Grammar.Row

/-! # What rules read

`Yields r c P` says that whatever the rule `r` takes at the cursor `c` satisfies `P` together with
the result. `Reads r ts rest a` says that `r` takes `ts` in front of `rest` and ends with `a`. Both
follow the steps of a rule, so a rule is looked at in the order in which it looks at tokens.
-/

namespace StoreQuery.Grammar

/-- The first of some tokens, or the end of the text. -/
def front : List Token → Token
  | [] => .eof
  | t :: _ => t

theorem front_append {ts rest : List Token} {t : Token} (h : front ts = t) (ht : t ≠ .eof) :
    front (ts ++ rest) = t := by
  cases ts with
  | nil => exact absurd h.symm ht
  | cons u us => exact h

namespace Cursor

def tokens (c : Cursor) : List Token :=
  c.rest.map Lexeme.token

theorem token_eq (c : Cursor) : c.token = front c.tokens := by
  cases h : c.rest <;> simp [token, tokens, front, h]

theorem tokens_next (c : Cursor) : c.next.tokens = c.tokens.tail := by
  cases h : c.rest <;> simp [next, tokens, h]

theorem token_of_tokens {c : Cursor} {t : Token} {ts : List Token} (h : c.tokens = t :: ts) :
    c.token = t := by
  rw [token_eq, h, front]

theorem tokens_of_token {c : Cursor} {t : Token} (h : c.token = t) (ht : t ≠ .eof) :
    c.tokens = t :: c.next.tokens := by
  rw [tokens_next]
  cases hts : c.tokens with
  | nil =>
    rw [token_eq, hts] at h
    exact absurd h.symm ht
  | cons u us => rw [← h, token_of_tokens hts, List.tail_cons]

end Cursor

open Rule

variable {α β : Type} {r : Rule α} {f : α → Rule β}

/-- What a rule takes at a cursor, if it ends with a result, satisfies a predicate. -/
def Yields (r : Rule α) (c : Cursor) (P : List Token → α → Prop) : Prop :=
  ∀ a c', r c = .done a c' → ∃ ts, c.tokens = ts ++ c'.tokens ∧ P ts a

namespace Yields

variable {c : Cursor} {P : List Token → β → Prop} {Q : List Token → α → Prop}

theorem pure {a : α} (h : Q [] a) : Yields (Pure.pure a) c Q := by
  rintro _ _ ⟨⟩
  exact ⟨[], rfl, h⟩

theorem bind (hr : Yields r c Q)
    (hf : ∀ ts a c', Q ts a → Yields (f a) c' fun us b => P (ts ++ us) b) :
    Yields (r >>= f) c P := by
  intro b c' h
  rw [bind_apply] at h
  split at h
  · next a c₁ ha =>
    obtain ⟨ts, hts, hq⟩ := hr a c₁ ha
    obtain ⟨us, hus, hp⟩ := hf ts a c₁ hq b c' h
    exact ⟨ts ++ us, by rw [hts, hus, List.append_assoc], hp⟩
  · cases h
  · cases h

theorem pure_bind {a : α} (h : Yields (f a) c P) : Yields (Pure.pure a >>= f) c P :=
  h

theorem mono {Q' : List Token → α → Prop} (hr : Yields r c Q) (h : ∀ ts a, Q ts a → Q' ts a) :
    Yields r c Q' := by
  intro a c' ha
  obtain ⟨ts, hts, hq⟩ := hr a c' ha
  exact ⟨ts, hts, h ts a hq⟩

theorem fail {fault : GrammarFault} : Yields (Rule.fail fault) c Q := by
  rintro _ _ ⟨⟩

theorem unexpected {wanted : Expectation} : Yields (Rule.unexpected wanted) c Q := by
  rintro _ _ ⟨⟩

theorem exhausted : Yields Rule.exhausted c Q := by
  rintro _ _ ⟨⟩

theorem peek {g : Token → Rule β} (h : Yields (g c.token) c P) : Yields (Rule.peek >>= g) c P :=
  h

theorem mention {p : String} {g : Unit → Rule β}
    (h : ∀ c', c'.tokens = c.tokens → c'.token = c.token → Yields (g ()) c' P) :
    Yields (Rule.mention p >>= g) c P :=
  h { c with mentioned := c.mentioned ++ [p] } rfl rfl

theorem advance {g : Unit → Rule β} {t : Token} (ht : c.token = t) (hne : t ≠ .eof)
    (h : Yields (g ()) c.next fun us b => P (t :: us) b) : Yields (Rule.advance >>= g) c P := by
  intro b c' hb
  obtain ⟨us, hus, hp⟩ := h b c' hb
  exact ⟨t :: us, by rw [Cursor.tokens_of_token ht hne, hus, List.cons_append], hp⟩

theorem accept {g : Bool → Rule β} {t : Token} (hne : t ≠ .eof)
    (htrue : Yields (g true) c.next fun us b => P (t :: us) b)
    (hfalse : c.token ≠ t → Yields (g false) c P) : Yields (Rule.accept t >>= g) c P := by
  intro b c' hb
  rw [bind_apply, Rule.accept] at hb
  split at hb
  · next heq =>
    split at heq
    · next ht =>
      cases heq
      obtain ⟨us, hus, hp⟩ := htrue b c' hb
      exact ⟨t :: us, by rw [Cursor.tokens_of_token ht hne, hus, List.cons_append], hp⟩
    · next ht =>
      cases heq
      exact hfalse ht b c' hb
  · cases hb
  · cases hb

theorem symbol {s : Symbol} : Yields (Rule.symbol s) c fun ts _ => ts = [.symbol s] :=
  accept (by simp) (pure rfl) fun _ => unexpected

theorem keyword {k : Keyword} : Yields (Rule.keyword k) c fun ts _ => ts = [.keyword k] :=
  accept (by simp) (pure rfl) fun _ => unexpected

theorem name : Yields Rule.name c fun ts s => ts = [.name s] := by
  refine peek ?_
  split
  · next ht => exact advance ht (by simp) (pure rfl)
  · exact unexpected

theorem text : Yields Rule.text c fun ts s => ts = [.text s] := by
  refine peek ?_
  split
  · next ht => exact advance ht (by simp) (pure rfl)
  · exact unexpected

theorem formed {e : Except QueryError α} (h : ∀ a, e = .ok a → Q [] a) :
    Yields (Rule.formed e) c Q := by
  cases e with
  | ok a => exact pure (h a rfl)
  | error e => rintro _ _ ⟨⟩

end Yields

theorem Yields.furtherUpTo {item : Rule α} {P : List Token → α → Prop} {separator : Token}
    (hne : separator ≠ .eof) (h : ∀ c, Yields item c P) (limit : Nat) (c : Cursor) :
    Yields (Rule.furtherUpTo separator item limit) c (Further separator P) := by
  induction limit generalizing c with
  | zero => exact exhausted
  | succ limit ih =>
    refine accept hne ?_ fun _ => pure .nil
    refine bind (h _) fun ts a c' ha => bind (ih c') fun us as c'' has => pure ?_
    rw [List.append_nil]
    exact .cons ha has

theorem Yields.further {item : Rule α} {P : List Token → α → Prop} {separator : Token}
    (hne : separator ≠ .eof) (h : ∀ c, Yields item c P) (c : Cursor) :
    Yields (Rule.further separator item) c (Further separator P) :=
  furtherUpTo hne h _ c

theorem Yields.list {item : Rule α} {P : List Token → α → Prop} (h : ∀ c, Yields item c P)
    (c : Cursor) :
    Yields (Rule.list item) c fun ts as => ∃ us vs b bs, ts = us ++ vs ∧ as = b :: bs ∧ P us b ∧
      Further (.symbol .comma) P vs bs := by
  refine bind (h c) fun us b c' hb => bind (further (by simp) h c') fun vs bs c'' hbs => pure ?_
  exact ⟨us, vs, b, bs, by rw [List.append_nil], rfl, hb, hbs⟩

/-- A rule takes some tokens in front of others and ends with a result. -/
def Reads (r : Rule α) (ts rest : List Token) (a : α) : Prop :=
  ∀ c : Cursor, c.tokens = ts ++ rest → ∃ c', r c = .done a c' ∧ c'.tokens = rest

namespace Reads

variable {ts us rest : List Token} {a : α} {b : β}

theorem pure : Reads (Pure.pure a) [] rest a :=
  fun c hc => ⟨c, rfl, hc⟩

theorem bind (hr : Reads r ts (us ++ rest) a) (hf : Reads (f a) us rest b) :
    Reads (r >>= f) (ts ++ us) rest b := by
  intro c hc
  obtain ⟨c₁, h₁, hc₁⟩ := hr c (by rw [hc, List.append_assoc])
  obtain ⟨c₂, h₂, hc₂⟩ := hf c₁ hc₁
  exact ⟨c₂, by rw [bind_apply, h₁]; exact h₂, hc₂⟩

/-- The last tokens are taken by the first of two rules. -/
theorem last (hr : Reads r ts rest a) (hf : Reads (f a) [] rest b) :
    Reads (r >>= f) ts rest b := by
  have h : Reads (r >>= f) (ts ++ []) rest b := bind hr hf
  rwa [List.append_nil] at h

theorem first (hr : Reads r [] (ts ++ rest) a) (hf : Reads (f a) ts rest b) :
    Reads (r >>= f) ts rest b :=
  bind hr hf

theorem peek {g : Token → Rule β} {t : Token} (ht : front (ts ++ rest) = t)
    (h : Reads (g t) ts rest b) : Reads (Rule.peek >>= g) ts rest b := by
  intro c hc
  have hct : c.token = t := by rw [Cursor.token_eq, hc, ht]
  obtain ⟨c', hg, hc'⟩ := h c hc
  exact ⟨c', by rw [bind_apply, Rule.peek, hct]; exact hg, hc'⟩

theorem advance {g : Unit → Rule β} {t : Token} (h : Reads (g ()) ts rest b) :
    Reads (Rule.advance >>= g) (t :: ts) rest b := by
  intro c hc
  exact h c.next (by rw [Cursor.tokens_next, hc]; rfl)

theorem mention {g : Unit → Rule β} {p : String} (h : Reads (g ()) ts rest b) :
    Reads (Rule.mention p >>= g) ts rest b :=
  fun c hc => h { c with mentioned := c.mentioned ++ [p] } hc

theorem accept {g : Bool → Rule β} {t : Token} (h : Reads (g true) ts rest b) :
    Reads (Rule.accept t >>= g) (t :: ts) rest b := by
  intro c hc
  obtain ⟨c', hg, hc'⟩ := h c.next (by rw [Cursor.tokens_next, hc]; rfl)
  refine ⟨c', ?_, hc'⟩
  rw [bind_apply, Rule.accept, if_pos (Cursor.token_of_tokens hc)]
  exact hg

theorem skip {g : Bool → Rule β} {t : Token} (ht : front (ts ++ rest) ≠ t)
    (h : Reads (g false) ts rest b) : Reads (Rule.accept t >>= g) ts rest b := by
  intro c hc
  obtain ⟨c', hg, hc'⟩ := h c hc
  refine ⟨c', ?_, hc'⟩
  rw [bind_apply, Rule.accept, if_neg (by rwa [Cursor.token_eq, hc])]
  exact hg

theorem symbol {g : Unit → Rule β} {s : Symbol} (h : Reads (g ()) ts rest b) :
    Reads (Rule.symbol s >>= g) (.symbol s :: ts) rest b := by
  have hs : Reads (Rule.symbol s) [.symbol s] (ts ++ rest) () := accept pure
  exact bind hs h

theorem keyword {g : Unit → Rule β} {k : Keyword} (h : Reads (g ()) ts rest b) :
    Reads (Rule.keyword k >>= g) (.keyword k :: ts) rest b := by
  have hk : Reads (Rule.keyword k) [.keyword k] (ts ++ rest) () := accept pure
  exact bind hk h

theorem name {s : String} : Reads Rule.name [.name s] rest s :=
  peek (t := .name s) rfl (advance pure)

theorem name_bind {g : String → Rule β} {s : String} (h : Reads (g s) ts rest b) :
    Reads (Rule.name >>= g) (.name s :: ts) rest b :=
  bind name h

theorem text {s : String} : Reads Rule.text [.text s] rest s :=
  peek (t := .text s) rfl (advance pure)

theorem text_bind {g : String → Rule β} {s : String} (h : Reads (g s) ts rest b) :
    Reads (Rule.text >>= g) (.text s :: ts) rest b :=
  bind text h

end Reads

section Rows

variable {item : Rule α} {P : List Token → α → Prop} {separator : Token} {ts us rest : List Token}
  {a : α} {as : List α} {F : Token → Prop}

theorem Further.front_append (h : Further separator P ts as) (hsep : F separator)
    (hrest : F (front rest)) : F (front (ts ++ rest)) := by
  cases h with
  | nil => exact hrest
  | cons => exact hsep

/-- A row is read if its items are read in front of whatever may follow an item. -/
theorem Further.reads (h : Further separator P ts as)
    (hitem : ∀ us a, us.length < ts.length → P us a → ∀ rest, F (front rest) →
      Reads item us rest a)
    (hsep : F separator) (hrest : F (front rest)) (hne : front rest ≠ separator) :
    Reads (Rule.further separator item) ts rest as := by
  have hlimit : ∀ limit, ts.length < limit →
      Reads (Rule.furtherUpTo separator item limit) ts rest as := by
    induction h with
    | nil =>
      intro limit hlt
      obtain ⟨limit, rfl⟩ := Nat.exists_eq_succ_of_ne_zero (Nat.ne_of_gt hlt)
      exact Reads.skip hne Reads.pure
    | @cons ts us a as hts hus ih =>
      intro limit hlt
      rw [List.length_cons, List.length_append] at hlt
      obtain ⟨limit, rfl⟩ := Nat.exists_eq_succ_of_ne_zero (show limit ≠ 0 by omega)
      rw [List.length_cons, List.length_append] at hitem
      have hfirst := hitem ts a (by omega) hts _ (hus.front_append hsep hrest)
      have hothers := ih (fun vs b hvs => hitem vs b (by omega)) limit (by omega)
      exact Reads.accept (Reads.bind hfirst (Reads.last hothers Reads.pure))
  intro c hc
  refine hlimit _ ?_ c hc
  have := congrArg List.length hc
  rw [Cursor.tokens, List.length_map, List.length_append] at this
  omega

theorem Further.reads_list (h : Further (.symbol .comma) P us as) (hts : P ts a)
    (hitem : ∀ vs a, vs.length ≤ ts.length + us.length → P vs a → ∀ rest, F (front rest) →
      Reads item vs rest a)
    (hsep : F (.symbol .comma)) (hrest : F (front rest))
    (hne : front rest ≠ .symbol .comma) : Reads (Rule.list item) (ts ++ us) rest (a :: as) := by
  refine Reads.bind (hitem ts a (by omega) hts _ (h.front_append hsep hrest)) ?_
  exact Reads.last (h.reads (fun vs b hvs => hitem vs b (by omega)) hsep hrest hne) Reads.pure

end Rows

end StoreQuery.Grammar
