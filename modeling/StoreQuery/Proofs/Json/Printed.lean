import StoreQuery.Json.Printer
import StoreQuery.Proofs.Token.Literal

/-! # What is printed of a document determines it

Both printed forms of documents are one form with other breaks: the compact one has none, the
indented one has a line break and the blanks of a depth before each item and each member. The first
character tells which constructor was printed, quoted text ends at its quote, and a number ends
where no token goes on; so a printed document can be taken off the characters that follow it.
-/

namespace StoreQuery

open Number Text Token

namespace Json

section Printed

def breakAt : Option Nat → List Char
  | none => []
  | some depth => (lineBreak depth).toList

def colon : Option Nat → List Char
  | none => [':']
  | some _ => [':', ' ']

def deeper (depth : Option Nat) : Option Nat :=
  depth.map (· + 1)

mutual

/-- A document in either printed form, in front of other characters. -/
def printed : Option Nat → Json → List Char → List Char
  | _, null, rest => "null".toList ++ rest
  | _, bool b, rest => (toString b).toList ++ rest
  | _, number n, rest => n.write.toList ++ rest
  | _, text s, rest => (quote s).toList ++ rest
  | _, array [], rest => '[' :: ']' :: rest
  | depth, array (x :: xs), rest =>
    '[' :: (breakAt (deeper depth) ++ printed (deeper depth) x
      (printedItems (deeper depth) xs (breakAt depth ++ ']' :: rest)))
  | _, object [], rest => '\x7b' :: '\x7d' :: rest
  | depth, object ((k, x) :: ms), rest =>
    '\x7b' :: (breakAt (deeper depth) ++ ((quote k).toList ++ (colon (deeper depth) ++
      printed (deeper depth) x
        (printedMembers (deeper depth) ms (breakAt depth ++ '\x7d' :: rest)))))

def printedItems : Option Nat → List Json → List Char → List Char
  | _, [], rest => rest
  | depth, x :: xs, rest =>
    ',' :: (breakAt depth ++ printed depth x (printedItems depth xs rest))

def printedMembers : Option Nat → List (String × Json) → List Char → List Char
  | _, [], rest => rest
  | depth, (k, x) :: ms, rest =>
    ',' :: (breakAt depth ++ ((quote k).toList ++ (colon depth ++
      printed depth x (printedMembers depth ms rest))))

end

mutual

theorem toList_compact : ∀ (j : Json) (rest : List Char),
    j.compact.toList ++ rest = printed none j rest
  | null, _ | bool _, _ | number _, _ | text _, _ | array [], _ | object [], _ => rfl
  | array (x :: xs), rest => by
    simp only [compact, String.toList_append, List.append_assoc]
    simp [printed, breakAt, deeper, toList_compact x, toList_compactItems xs]
  | object ((k, x) :: ms), rest => by
    simp only [compact, String.toList_append, List.append_assoc]
    simp [printed, breakAt, colon, deeper, toList_compact x, toList_compactMembers ms]

theorem toList_compactItems : ∀ (js : List Json) (rest : List Char),
    (compactItems js).toList ++ rest = printedItems none js rest
  | [], _ => rfl
  | j :: js, rest => by
    simp only [compactItems, String.toList_append, List.append_assoc]
    simp [printedItems, breakAt, toList_compact j, toList_compactItems js]

theorem toList_compactMembers : ∀ (ms : List (String × Json)) (rest : List Char),
    (compactMembers ms).toList ++ rest = printedMembers none ms rest
  | [], _ => rfl
  | (k, j) :: ms, rest => by
    simp only [compactMembers, String.toList_append, List.append_assoc]
    simp [printedMembers, breakAt, colon, toList_compact j, toList_compactMembers ms]

end

mutual

theorem toList_indentedAt : ∀ (j : Json) (depth : Nat) (rest : List Char),
    (indentedAt depth j).toList ++ rest = printed (some depth) j rest
  | null, _, _ | bool _, _, _ | number _, _, _ | text _, _, _ => by
    simp only [indentedAt, printed]
  | array [], _, _ | object [], _, _ => by simp [indentedAt, printed]
  | array (x :: xs), depth, rest => by
    simp only [indentedAt, String.toList_append, List.append_assoc]
    simp [printed, breakAt, deeper, toList_indentedAt x, toList_indentedItems xs]
  | object ((k, x) :: ms), depth, rest => by
    simp only [indentedAt, String.toList_append, List.append_assoc]
    simp [printed, breakAt, colon, deeper, toList_indentedAt x, toList_indentedMembers ms]

theorem toList_indentedItems : ∀ (js : List Json) (depth : Nat) (rest : List Char),
    (indentedItems depth js).toList ++ rest = printedItems (some depth) js rest
  | [], _, _ => rfl
  | j :: js, depth, rest => by
    simp only [indentedItems, String.toList_append, List.append_assoc]
    simp [printedItems, breakAt, toList_indentedAt j, toList_indentedItems js]

theorem toList_indentedMembers : ∀ (ms : List (String × Json)) (depth : Nat) (rest : List Char),
    (indentedMembers depth ms).toList ++ rest = printedMembers (some depth) ms rest
  | [], _, _ => rfl
  | (k, j) :: ms, depth, rest => by
    simp only [indentedMembers, String.toList_append, List.append_assoc]
    simp [printedMembers, breakAt, colon, toList_indentedAt j, toList_indentedMembers ms]

end

end Printed

namespace Num

def negative : Num → Bool
  | integer n => decide (n.val < 0)
  | float x => x.negative

def magnitude : Num → List Char
  | integer n => Nat.toDigits 10 n.val.natAbs
  | float x => Layout.json.writeMagnitude x.rank

theorem toList_write (n : Num) :
    n.write.toList = if n.negative then '-' :: n.magnitude else n.magnitude := by
  cases n with
  | integer n => exact toList_toString_int n.val
  | float x => exact String.toList_ofList

theorem startsDigit_magnitude (n : Num) : StartsDigit n.magnitude := by
  cases n with
  | integer n => exact startsDigit_toDigits _
  | float x => exact startsDigit_writeMagnitude Layout.json x.rank

theorem exists_readNumber (n : Num) {rest : List Char} (hs : stops rest = true) :
    ∃ t, Token.readNumber n.negative (n.magnitude ++ rest) = (t, rest) ∧
      ∀ x, t = .float x ↔ n = float x := by
  cases n with
  | integer n =>
    refine ⟨_, readNumber_whole (isDigit_toDigits _) (.of_stops hs), fun x => ⟨fun h => ?_, nofun⟩⟩
    simp only [ofDigits] at h
    split at h
    · split at h <;> cases h
    · split at h <;> cases h
  | float x =>
    have hread : Token.readNumber x.negative (Layout.json.writeMagnitude x.rank ++ rest) =
        (.float x, rest) := readNumber_writeMagnitude rfl x.rank hs
    exact ⟨_, hread, fun y => by simp⟩

theorem signed_append {m n : Num} {r s : List Char}
    (h : m.write.toList ++ r = n.write.toList ++ s) :
    m.negative = n.negative ∧ m.magnitude ++ r = n.magnitude ++ s := by
  obtain ⟨c, cs, hm, hc⟩ := m.startsDigit_magnitude
  obtain ⟨d, ds, hn, hd⟩ := n.startsDigit_magnitude
  have hminus : ∀ {c : Char}, c.isDigit = true → c ≠ '-' := by
    rintro _ hc rfl
    exact absurd hc (by decide)
  rw [toList_write, toList_write, hm, hn] at h
  rw [hm, hn]
  cases hm : m.negative with
  | false =>
    cases hn : n.negative with
    | false => simpa [hm, hn] using h
    | true => simp [hm, hn, hminus hc] at h
  | true =>
    cases hn : n.negative with
    | false => simp [hm, hn, (hminus hd).symm] at h
    | true => simpa [hm, hn] using h

theorem write_append {m n : Num} {r s : List Char} (h : m.write.toList ++ r = n.write.toList ++ s)
    (hr : stops r = true) (hs : stops s = true) : m = n ∧ r = s := by
  obtain ⟨hsign, hmagnitude⟩ := signed_append h
  obtain ⟨t, hread, ht⟩ := m.exists_readNumber hr
  obtain ⟨u, hread', hu⟩ := n.exists_readNumber hs
  rw [hsign, hmagnitude, hread'] at hread
  obtain ⟨rfl, rfl⟩ := Prod.mk.inj hread
  refine ⟨?_, rfl⟩
  cases m with
  | float x => exact ((hu x).1 ((ht x).2 rfl)).symm
  | integer m =>
    cases n with
    | float y => exact absurd ((ht y).1 ((hu y).2 rfl)) nofun
    | integer n =>
      -- The tokens of integers beyond the signed words are alike; their digits are not.
      have hdigits := congrArg (Nat.ofDigitChars 10 · 0) (List.append_cancel_right hmagnitude)
      simp only [magnitude, Nat.ofDigitChars_ten_toDigits] at hdigits
      have hval : m.val = n.val := by
        simp only [negative, decide_eq_decide] at hsign
        omega
      obtain ⟨i, _, _⟩ := m
      cases hval
      rfl

end Num

theorem quote_append {a b : String} {r s : List Char}
    (h : (quote a).toList ++ r = (quote b).toList ++ s) : a = b ∧ r = s := by
  simp only [toList_quote, List.cons_append, List.append_assoc, List.nil_append,
    List.cons.injEq, true_and] at h
  have hread := congrArg (Token.readText '"') h
  rw [readText_quote, readText_quote] at hread
  obtain ⟨ha, hrest⟩ := Prod.mk.inj hread
  exact ⟨String.toList_inj.1 (Except.ok.inj ha), hrest⟩

section Shape

inductive Shape where
  | null
  | bool (b : Bool)
  | number
  | text
  | array
  | object

def shape : Json → Shape
  | null => .null
  | bool b => .bool b
  | number _ => .number
  | text _ => .text
  | array _ => .array
  | object _ => .object

def Shape.ofFirst? : Char → Option Shape
  | 'n' => some .null
  | 't' => some (.bool true)
  | 'f' => some (.bool false)
  | '"' => some .text
  | '[' => some .array
  | '\x7b' => some .object
  | c => if c == '-' || c.isDigit then some .number else none

theorem Shape.ofFirst?_of_isDigit {c : Char} (hc : c.isDigit = true) :
    ofFirst? c = some .number := by
  unfold ofFirst?
  split
  case h_7 => rw [hc, Bool.or_true, if_pos rfl]
  all_goals exact absurd hc (by decide)

theorem exists_first (depth : Option Nat) (j : Json) (rest : List Char) :
    ∃ c cs, printed depth j rest = c :: cs ∧ Shape.ofFirst? c = some j.shape := by
  match j with
  | null => exact ⟨'n', _, rfl, rfl⟩
  | bool true => exact ⟨'t', _, rfl, rfl⟩
  | bool false => exact ⟨'f', _, rfl, rfl⟩
  | number n =>
    obtain ⟨c, cs, hn, hc⟩ := n.startsDigit_magnitude
    rw [printed, n.toList_write, hn]
    split
    · exact ⟨'-', _, rfl, rfl⟩
    · exact ⟨c, _, rfl, Shape.ofFirst?_of_isDigit hc⟩
  | text s =>
    rw [printed, toList_quote]
    exact ⟨'"', _, rfl, rfl⟩
  | array [] | array (_ :: _) => exact ⟨'[', _, rfl, rfl⟩
  | object [] | object ((_, _) :: _) => exact ⟨'\x7b', _, rfl, rfl⟩

theorem shape_eq {depth : Option Nat} {j k : Json} {r s : List Char}
    (h : printed depth j r = printed depth k s) : j.shape = k.shape := by
  obtain ⟨c, cs, hj, hc⟩ := exists_first depth j r
  obtain ⟨d, ds, hk, hd⟩ := exists_first depth k s
  rw [hj, hk] at h
  rw [(List.cons.inj h).1, hd] at hc
  exact (Option.some.inj hc).symm

end Shape

section Cancel

variable {depth : Option Nat} {r s : List Char}

/-- Whether a printed list can end before some characters. -/
def EndsList (rest : List Char) : Prop :=
  stops rest = true ∧ rest.head? ≠ some ','

theorem endsList_close (depth : Option Nat) {c : Char} (hc : c = ']' ∨ c = '\x7d')
    (rest : List Char) : EndsList (breakAt depth ++ c :: rest) := by
  cases depth with
  | none => rcases hc with rfl | rfl <;> exact ⟨rfl, by simp [breakAt]⟩
  | some d =>
    simp only [breakAt, lineBreak, String.toList_ofList]
    exact ⟨rfl, by simp⟩

theorem EndsList.items (h : EndsList r) (js : List Json) :
    stops (printedItems depth js r) = true := by
  cases js with
  | nil => exact h.1
  | cons => rfl

theorem EndsList.members (h : EndsList r) (ms : List (String × Json)) :
    stops (printedMembers depth ms r) = true := by
  cases ms with
  | nil => exact h.1
  | cons => rfl

theorem head?_breakAt {c : Char} (hc : c ≠ '\n') (hr : r.head? ≠ some c) :
    (breakAt depth ++ r).head? ≠ some c := by
  cases depth with
  | none => exact hr
  | some d =>
    simp only [breakAt, lineBreak, String.toList_ofList, List.cons_append, List.head?_cons]
    exact fun h => hc (Option.some.inj h).symm

theorem head?_printed {c : Char} (hc : Shape.ofFirst? c = none) (j : Json) :
    (printed depth j r).head? ≠ some c := by
  obtain ⟨d, ds, hj, hd⟩ := exists_first depth j r
  rw [hj, List.head?_cons]
  rintro ⟨⟩
  rw [hc] at hd
  cases hd

theorem head?_quote (a : String) : ((quote a).toList ++ r).head? ≠ some '\x7d' := by
  rw [toList_quote]
  rintro ⟨⟩

mutual

/-- A printed document can be taken off the characters after it. -/
theorem printed_append : ∀ (j : Json) {k : Json} {depth : Option Nat} {r s : List Char},
    printed depth j r = printed depth k s → stops r = true → stops s = true → j = k ∧ r = s
  | null, k, _, _, _, h, _, _ => by
    have hshape := shape_eq h
    cases k with
    | null => exact ⟨rfl, List.append_cancel_left h⟩
    | _ => cases hshape
  | bool b, k, _, _, _, h, _, _ => by
    have hshape := shape_eq h
    cases k with
    | bool c =>
      obtain rfl : b = c := Shape.bool.inj hshape
      exact ⟨rfl, List.append_cancel_left h⟩
    | _ => cases hshape
  | number n, k, _, _, _, h, hr, hs => by
    have hshape := shape_eq h
    cases k with
    | number m =>
      obtain ⟨rfl, hrest⟩ := Num.write_append h hr hs
      exact ⟨rfl, hrest⟩
    | _ => cases hshape
  | text a, k, _, _, _, h, _, _ => by
    have hshape := shape_eq h
    cases k with
    | text b =>
      obtain ⟨rfl, hrest⟩ := quote_append h
      exact ⟨rfl, hrest⟩
    | _ => cases hshape
  | array xs, k, depth, r, s, h, _, _ => by
    have hshape := shape_eq h
    cases k with
    | array ys =>
      have hclose := endsList_close depth (.inl (Eq.refl ']'))
      -- No item begins with the bracket that closes an array at once.
      cases xs with
      | nil =>
        cases ys with
        | nil => exact ⟨rfl, (List.cons.inj (List.cons.inj h).2).2⟩
        | cons y ys =>
          exact absurd (congrArg List.head? (List.cons.inj h).2).symm
            (head?_breakAt (by decide) (head?_printed rfl y))
      | cons x xs =>
        cases ys with
        | nil =>
          exact absurd (congrArg List.head? (List.cons.inj h).2)
            (head?_breakAt (by decide) (head?_printed rfl x))
        | cons y ys =>
          have hitems : printedItems (deeper depth) (x :: xs) (breakAt depth ++ ']' :: r) =
              printedItems (deeper depth) (y :: ys) (breakAt depth ++ ']' :: s) :=
            congrArg (List.cons ',') (List.cons.inj h).2
          obtain ⟨hxs, hrest⟩ := printedItems_append (x :: xs) hitems (hclose r) (hclose s)
          exact ⟨congrArg array hxs, (List.cons.inj (List.append_cancel_left hrest)).2⟩
    | _ => cases hshape
  | object ms, k, depth, r, s, h, _, _ => by
    have hshape := shape_eq h
    cases k with
    | object ns =>
      have hclose := endsList_close depth (.inr (Eq.refl '\x7d'))
      cases ms with
      | nil =>
        cases ns with
        | nil => exact ⟨rfl, (List.cons.inj (List.cons.inj h).2).2⟩
        | cons n ns =>
          exact absurd (congrArg List.head? (List.cons.inj h).2).symm
            (head?_breakAt (by decide) (head?_quote n.1))
      | cons m ms =>
        cases ns with
        | nil =>
          exact absurd (congrArg List.head? (List.cons.inj h).2)
            (head?_breakAt (by decide) (head?_quote m.1))
        | cons n ns =>
          have hmembers : printedMembers (deeper depth) (m :: ms) (breakAt depth ++ '\x7d' :: r) =
              printedMembers (deeper depth) (n :: ns) (breakAt depth ++ '\x7d' :: s) :=
            congrArg (List.cons ',') (List.cons.inj h).2
          obtain ⟨hms, hrest⟩ := printedMembers_append (m :: ms) hmembers (hclose r) (hclose s)
          exact ⟨congrArg object hms, (List.cons.inj (List.append_cancel_left hrest)).2⟩
    | _ => cases hshape

theorem printedItems_append : ∀ (js : List Json) {ks : List Json} {depth : Option Nat}
    {r s : List Char}, printedItems depth js r = printedItems depth ks s → EndsList r →
      EndsList s → js = ks ∧ r = s
  | [], [], _, _, _, h, _, _ => ⟨rfl, h⟩
  | [], _ :: _, _, _, _, h, hr, _ => absurd (congrArg List.head? h) hr.2
  | _ :: _, [], _, _, _, h, _, hs => absurd (congrArg List.head? h).symm hs.2
  | j :: js, k :: ks, _, _, _, h, hr, hs => by
    obtain ⟨rfl, hitems⟩ := printed_append j (List.append_cancel_left (List.cons.inj h).2)
      (hr.items js) (hs.items ks)
    obtain ⟨rfl, hrest⟩ := printedItems_append js hitems hr hs
    exact ⟨rfl, hrest⟩

theorem printedMembers_append : ∀ (ms : List (String × Json)) {ns : List (String × Json)}
    {depth : Option Nat} {r s : List Char},
    printedMembers depth ms r = printedMembers depth ns s → EndsList r → EndsList s →
      ms = ns ∧ r = s
  | [], [], _, _, _, h, _, _ => ⟨rfl, h⟩
  | [], (_, _) :: _, _, _, _, h, hr, _ => absurd (congrArg List.head? h) hr.2
  | (_, _) :: _, [], _, _, _, h, _, hs => absurd (congrArg List.head? h).symm hs.2
  | (a, x) :: ms, (b, y) :: ns, _, _, _, h, hr, hs => by
    obtain ⟨rfl, hvalue⟩ := quote_append (List.append_cancel_left (List.cons.inj h).2)
    obtain ⟨rfl, hmembers⟩ := printed_append x (List.append_cancel_left hvalue)
      (hr.members ms) (hs.members ns)
    obtain ⟨rfl, hrest⟩ := printedMembers_append ms hmembers hr hs
    exact ⟨rfl, hrest⟩

end

end Cancel

section Injective

theorem compact_injective : Function.Injective compact := by
  intro j k h
  have hprinted : printed none j [] = printed none k [] := by
    rw [← toList_compact, ← toList_compact, h]
  exact (printed_append j hprinted rfl rfl).1

theorem indented_injective : Function.Injective indented := by
  intro j k h
  have hprinted : printed (some 0) j [] = printed (some 0) k [] := by
    rw [← toList_indentedAt, ← toList_indentedAt]
    exact congrArg (String.toList · ++ []) h
  exact (printed_append j hprinted rfl rfl).1

def lines (js : List Json) : String :=
  String.join (js.map fun j => j.indented ++ "\n")

theorem toList_lines_cons (j : Json) (js : List Json) :
    (lines (j :: js)).toList = printed (some 0) j ('\n' :: (lines js).toList) := by
  rw [← toList_indentedAt]
  simp [lines, indented, String.join_cons]

theorem lines_cons_ne (j : Json) (js : List Json) : lines (j :: js) ≠ lines [] := by
  intro h
  obtain ⟨c, cs, hj, -⟩ := exists_first (some 0) j ('\n' :: (lines js).toList)
  have hlines := toList_lines_cons j js
  rw [h, hj] at hlines
  cases hlines

theorem lines_injective : Function.Injective lines := by
  intro js
  induction js with
  | nil =>
    intro ks h
    cases ks with
    | nil => rfl
    | cons k ks => exact absurd h.symm (lines_cons_ne k ks)
  | cons j js ih =>
    intro ks h
    cases ks with
    | nil => exact absurd h (lines_cons_ne j js)
    | cons k ks =>
      have hlines := congrArg String.toList h
      rw [toList_lines_cons, toList_lines_cons] at hlines
      obtain ⟨rfl, hrest⟩ := printed_append j hlines rfl rfl
      rw [ih (String.toList_inj.1 (List.cons.inj hrest).2)]

end Injective

end Json

end StoreQuery
