import StoreQuery.Proofs.CommandLine.Formatting
import StoreQuery.Proofs.Json.Printed
import StoreQuery.Proofs.Query.Native
import StoreQuery.Proofs.Query.Normal

/-! # Documents identify statements

A literal stands bare in a document; operands, payloads, conditions and statements say in three ways
what they are: by a tag before one part, by a tag among named parts, or by a member of its own. No
two that can be read from texts have one document: a tag leaves one constructor, and below it the
parts are compared. What is printed of a document determines it, so what is printed of a statement
determines the statement.
-/

namespace StoreQuery

open Grammar CommandLine

namespace Json

@[simp] theorem ofUInt64_inj {m n : UInt64} : ofUInt64 m = ofUInt64 n ↔ m = n := by
  refine ⟨fun h => ?_, congrArg ofUInt64⟩
  have hm := Integer.toUInt64?_ofUInt64 m
  rwa [Num.integer.inj (number.inj h), Integer.toUInt64?_ofUInt64, Option.some.injEq,
    eq_comm] at hm

@[simp] theorem tagged_inj {a b : String} {j k : Json} :
    tagged a j = tagged b k ↔ a = b ∧ j = k := by
  simp [tagged]

@[simp] theorem variant_inj {a b : String} {ms ns : List (String × Json)} :
    variant a ms = variant b ns ↔ a = b ∧ ms = ns := by
  simp [variant]

theorem map_text_inj {as bs : List String} : as.map text = bs.map text ↔ as = bs :=
  (List.map_injective_iff.2 fun _ _ => text.inj).eq_iff

theorem ofOption_inj {α : Type} {f : α → Json} (hf : Function.Injective f)
    (hnull : ∀ a, f a ≠ null) {a b : Option α} (h : ofOption f a = ofOption f b) : a = b := by
  cases a with
  | none =>
    cases b with
    | none => rfl
    | some b => exact absurd h.symm (hnull b)
  | some a =>
    cases b with
    | none => exact absurd h (hnull a)
    | some b => exact congrArg some (hf h)

/-- Whether two documents are printed alike, without blanks or with an item or member a line. -/
def PrintedAlike (j k : Json) : Prop :=
  j.compact = k.compact ∨ j.indented = k.indented

theorem PrintedAlike.eq {j k : Json} (h : j.PrintedAlike k) : j = k :=
  h.elim (compact_injective ·) (indented_injective ·)

end Json

theorem Value.IsScalar.ofJson_toJson {v : Value} (h : v.IsScalar) : ofJson v.toJson = v := by
  cases v with
  | null | bool | text => rfl
  | int n => exact ofJson_ofInt64 n
  | float x =>
    cases x with
    | finite => rfl
    | _ => cases h
  | _ => cases h

/-- Scalars are told by their documents. Other values are not: a document stands for itself, and
what is no finite number becomes null. -/
theorem Value.IsScalar.eq_of_toJson {v w : Value} (hv : v.IsScalar) (hw : w.IsScalar)
    (h : v.toJson = w.toJson) : v = w := by
  rw [← hv.ofJson_toJson, h, hw.ofJson_toJson]

theorem Comparison.tag_injective : Function.Injective tag := by
  intro c d h
  cases c <;> cases d <;> simp [tag] at h ⊢

theorem SortKey.toJson_injective : Function.Injective toJson := by
  rintro ⟨n, d⟩ ⟨m, e⟩ h
  cases d <;> cases e <;> simp [toJson, Direction.word] at h ⊢ <;> exact h

theorem Lifetime.toJson_injective : Function.Injective toJson := by
  rintro ⟨m, a, ha⟩ ⟨n, b, hb⟩ h
  have h : m = n ∧ UInt64.ofNat a = UInt64.ofNat b := by simpa [toJson] using h
  obtain ⟨rfl, hnanos⟩ := h
  have hnanos := congrArg UInt64.toNat hnanos
  rw [UInt64.toNat_ofNat_of_lt' (Nat.lt_trans ha (by decide)),
    UInt64.toNat_ofNat_of_lt' (Nat.lt_trans hb (by decide))] at hnanos
  cases hnanos
  rfl

theorem StatementKind.word_injective : Function.Injective word := by
  intro k l h
  cases k <;> cases l <;> simp [word] at h ⊢

theorem Condition.toJson_ne_null (c : Condition) : c.toJson ≠ .null := by
  cases c <;> nofun

mutual

theorem Operand.eq_of_toJson : ∀ {v w : Operand}, v.Readable → w.Readable →
    v.toJson = w.toJson → v = w
  | .literal v, w, hv, hw, h => by
    cases w with
    | literal w =>
      simp only [Operand.toJson, Json.tagged_inj, true_and] at h
      exact congrArg Operand.literal (hv.eq_of_toJson hw h)
    | _ => simp [Operand.toJson] at h
  | .parameter n, w, _, _, h => by
    cases w with
    | parameter m => simpa [Operand.toJson] using h
    | _ => simp [Operand.toJson] at h
  | .document j, w, _, _, h => by
    cases w with
    | document k => simpa [Operand.toJson] using h
    | _ => simp [Operand.toJson] at h
  | .list xs, w, hv, hw, h => by
    cases w with
    | list ys =>
      simp only [Operand.toJson, Json.tagged_inj, true_and, Json.array.injEq] at h
      exact congrArg Operand.list (Operand.items_eq_of_toJson hv.2 hw.2 h)
    | _ => simp [Operand.toJson] at h
  | .nested s, w, hv, hw, h => by
    cases w with
    | nested t =>
      simp only [Operand.toJson, Json.tagged_inj, true_and, Json.object.injEq] at h
      exact congrArg Operand.nested (Select.eq_of_members hv hw h)
    | _ => simp [Operand.toJson] at h

theorem Operand.items_eq_of_toJson : ∀ {vs ws : List Operand}, Operand.AllReadable vs →
    Operand.AllReadable ws → Operand.itemsToJson vs = Operand.itemsToJson ws → vs = ws
  | [], [], _, _, _ => rfl
  | [], _ :: _, _, _, h => nomatch h
  | _ :: _, [], _, _, h => nomatch h
  | _ :: _, _ :: _, hv, hw, h =>
    congrArg₂ List.cons (Operand.eq_of_toJson hv.1 hw.1 (List.cons.inj h).1)
      (Operand.items_eq_of_toJson hv.2 hw.2 (List.cons.inj h).2)

theorem Condition.eq_of_toJson : ∀ {c d : Condition}, c.Readable → d.Readable →
    c.toJson = d.toJson → c = d
  | .compare n o v, d, hc, hd, h => by
    cases d with
    | compare m p w =>
      have h : n = m ∧ o.tag = p.tag ∧ v.toJson = w.toJson := by simpa [Condition.toJson] using h
      obtain ⟨rfl, htag, hv⟩ := h
      rw [Comparison.tag_injective htag, Operand.eq_of_toJson hc.2 hd.2 hv]
    | _ => simp [Condition.toJson] at h
  | .within n v, d, hc, hd, h => by
    cases d with
    | within m w =>
      have h : n = m ∧ v.toJson = w.toJson := by simpa [Condition.toJson] using h
      obtain ⟨rfl, hv⟩ := h
      rw [Operand.eq_of_toJson hc.2.2 hd.2.2 hv]
    | _ => simp [Condition.toJson] at h
  | .between n v v', d, hc, hd, h => by
    cases d with
    | between m w w' =>
      have h : n = m ∧ v.toJson = w.toJson ∧ v'.toJson = w'.toJson := by
        simpa [Condition.toJson] using h
      obtain ⟨rfl, hlow, hhigh⟩ := h
      rw [Operand.eq_of_toJson hc.2.1 hd.2.1 hlow, Operand.eq_of_toJson hc.2.2 hd.2.2 hhigh]
    | _ => simp [Condition.toJson] at h
  | .all cs, d, hc, hd, h => by
    cases d with
    | all ds =>
      have h : Condition.itemsToJson cs = Condition.itemsToJson ds := by
        simpa [Condition.toJson] using h
      exact congrArg Condition.all (Condition.items_eq_of_toJson hc.2.2 hd.2.2 h)
    | _ => simp [Condition.toJson] at h
  | .any cs, d, hc, hd, h => by
    cases d with
    | any ds =>
      have h : Condition.itemsToJson cs = Condition.itemsToJson ds := by
        simpa [Condition.toJson] using h
      exact congrArg Condition.any (Condition.items_eq_of_toJson hc.2.2 hd.2.2 h)
    | _ => simp [Condition.toJson] at h
  | .not c, d, hc, hd, h => by
    cases d with
    | not d =>
      have h : c.toJson = d.toJson := by simpa [Condition.toJson] using h
      exact congrArg Condition.not (Condition.eq_of_toJson hc hd h)
    | _ => simp [Condition.toJson] at h

theorem Condition.items_eq_of_toJson : ∀ {cs ds : List Condition}, Condition.AllReadable cs →
    Condition.AllReadable ds → Condition.itemsToJson cs = Condition.itemsToJson ds → cs = ds
  | [], [], _, _, _ => rfl
  | [], _ :: _, _, _, h => nomatch h
  | _ :: _, [], _, _, h => nomatch h
  | _ :: _, _ :: _, hc, hd, h =>
    congrArg₂ List.cons (Condition.eq_of_toJson hc.1 hd.1 (List.cons.inj h).1)
      (Condition.items_eq_of_toJson hc.2 hd.2 (List.cons.inj h).2)

theorem Condition.clause_eq_of_toJson : ∀ {c d : Option Condition}, Condition.ClauseReadable c →
    Condition.ClauseReadable d → Condition.clauseToJson c = Condition.clauseToJson d → c = d
  | none, none, _, _, _ => rfl
  | none, some d, _, _, h => absurd h.symm d.toJson_ne_null
  | some c, none, _, _, h => absurd h c.toJson_ne_null
  | some _, some _, hc, hd, h => congrArg some (Condition.eq_of_toJson hc hd h)

theorem Select.eq_of_members : ∀ {s t : Select}, s.Readable → t.Readable →
    s.members = t.members → s = t
  | ⟨a, fs, c, ss, m, n⟩, ⟨b, gs, d, ts, p, q⟩, hs, ht, h => by
    simp only [Select.members, List.cons.injEq, Prod.mk.injEq, Json.text.injEq, Json.array.injEq,
      Json.map_text_inj, Json.ofUInt64_inj, true_and, and_true] at h
    obtain ⟨rfl, rfl, hclause, hsorts, rfl, rfl⟩ := h
    rw [Condition.clause_eq_of_toJson hs.2.2.1 ht.2.2.1 hclause,
      List.map_injective_iff.2 SortKey.toJson_injective hsorts]

end

theorem Condition.IsAssignment.readable {c : Condition} (h : c.IsAssignment) : c.Readable := by
  obtain ⟨n, v, rfl, hn, hv⟩ := h
  exact ⟨hn, hv⟩

theorem Payload.eq_of_toJson {p q : Payload} (hp : p.Readable) (hq : q.Readable)
    (h : p.toJson = q.toJson) : p = q := by
  cases p with
  | assignments cs =>
    cases q with
    | assignments ds =>
      have h : Condition.itemsToJson cs = Condition.itemsToJson ds := by simpa [toJson] using h
      have hcs := Condition.allReadable_iff.2 fun c hc => (hp.2 c hc).readable
      have hds := Condition.allReadable_iff.2 fun d hd => (hq.2 d hd).readable
      rw [Condition.items_eq_of_toJson hcs hds h]
    | document w => simp [toJson] at h
  | document v =>
    cases q with
    | assignments ds => simp [toJson] at h
    | document w =>
      have h : v.toJson = w.toJson := by simpa [toJson] using h
      rw [Operand.eq_of_toJson hp.2 hq.2 h]

namespace Statement

theorem members_eq {s t : Statement} (h : s.toJson = t.toJson) :
    s.kind = t.kind ∧ s.members = t.members := by
  simp only [toJson, Json.object.injEq, List.cons.injEq, Prod.mk.injEq, Json.text.injEq,
    true_and] at h
  exact ⟨StatementKind.word_injective h.1, h.2⟩

theorem ttl_eq {t u : Option Lifetime}
    (h : Json.ofOption Lifetime.toJson t = Json.ofOption Lifetime.toJson u) : t = u :=
  Json.ofOption_inj Lifetime.toJson_injective nofun h

theorem keys_eq {ks ls : List Operand} (hk : ∀ k ∈ ks, k.Readable) (hl : ∀ l ∈ ls, l.Readable)
    (h : Operand.itemsToJson ks = Operand.itemsToJson ls) : ks = ls :=
  Operand.items_eq_of_toJson (Operand.allReadable_iff.2 hk) (Operand.allReadable_iff.2 hl) h

theorem eq_of_toJson {s t : Statement} (hs : s.Readable) (ht : t.Readable)
    (h : s.toJson = t.toJson) : s = t := by
  obtain ⟨hkind, hmembers⟩ := members_eq h
  cases s with
  | select s =>
    cases t with
    | select t => exact congrArg select (Select.eq_of_members hs ht hmembers)
    | _ => cases hkind
  | insert s =>
    cases t with
    | insert t =>
      obtain ⟨a, p, ttl⟩ := s
      obtain ⟨b, q, _⟩ := t
      simp only [members, List.cons.injEq, Prod.mk.injEq, Json.text.injEq, true_and,
        and_true] at hmembers
      obtain ⟨rfl, hpayload, httl⟩ := hmembers
      obtain rfl : p = q := Payload.eq_of_toJson hs.2.1 ht.2.1 hpayload
      obtain rfl := ttl_eq httl
      rfl
    | _ => cases hkind
  | update s =>
    cases t with
    | update t =>
      obtain ⟨a, p⟩ := s
      obtain ⟨b, q⟩ := t
      simp only [members, List.cons.injEq, Prod.mk.injEq, Json.text.injEq, true_and,
        and_true] at hmembers
      obtain ⟨rfl, hpayload⟩ := hmembers
      obtain rfl : p = q := Payload.eq_of_toJson hs.2 ht.2 hpayload
      rfl
    | _ => cases hkind
  | delete s =>
    cases t with
    | delete t =>
      obtain ⟨a, fs, c⟩ := s
      obtain ⟨b, gs, d⟩ := t
      simp only [members, List.cons.injEq, Prod.mk.injEq, Json.text.injEq, Json.array.injEq,
        Json.map_text_inj, true_and, and_true] at hmembers
      obtain ⟨rfl, rfl, hclause⟩ := hmembers
      obtain rfl : c = d := Condition.clause_eq_of_toJson hs.2.2 ht.2.2 hclause
      rfl
    | _ => cases hkind
  | get ks =>
    cases t with
    | get ls =>
      simp only [members, List.cons.injEq, Prod.mk.injEq, Json.array.injEq, true_and,
        and_true] at hmembers
      rw [keys_eq hs.2 ht.2 hmembers]
    | _ => cases hkind
  | put s =>
    cases t with
    | put t =>
      obtain ⟨k, v, ttl⟩ := s
      obtain ⟨l, w, _⟩ := t
      simp only [members, List.cons.injEq, Prod.mk.injEq, true_and, and_true] at hmembers
      obtain ⟨hkey, hvalue, httl⟩ := hmembers
      obtain rfl : k = l := Operand.eq_of_toJson hs.1 ht.1 hkey
      obtain rfl : v = w := Operand.eq_of_toJson hs.2.1 ht.2.1 hvalue
      obtain rfl := ttl_eq httl
      rfl
    | _ => cases hkind
  | del ks =>
    cases t with
    | del ls =>
      simp only [members, List.cons.injEq, Prod.mk.injEq, Json.array.injEq, true_and,
        and_true] at hmembers
      rw [keys_eq hs.2 ht.2 hmembers]
    | _ => cases hkind

theorem all_eq_of_toJson : ∀ {ss ts : List Statement}, (∀ s ∈ ss, s.Readable) →
    (∀ t ∈ ts, t.Readable) → ss.map toJson = ts.map toJson → ss = ts
  | [], [], _, _, _ => rfl
  | [], _ :: _, _, _, h => nomatch h
  | _ :: _, [], _, _, h => nomatch h
  | s :: ss, t :: ts, hs, ht, h => by
    rw [List.forall_mem_cons] at hs ht
    obtain ⟨hhead, htail⟩ := List.cons.inj h
    rw [eq_of_toJson hs.1 ht.1 hhead, all_eq_of_toJson hs.2 ht.2 htail]

end Statement

theorem CommandLine.Command.run_parse_json {text : String} {ss : List Statement}
    (h : (parseScript text).result = .ok ss) :
    (parse true).run text = .ok (Json.lines (ss.map Statement.toJson)) := by
  rw [run, h, Json.lines, List.map_map]
  rfl

section Parts

inductive Part where
  | statement (s : Statement)
  | select (s : Select)
  | payload (p : Payload)
  | lifetime (t : Lifetime)
  | condition (c : Condition)
  | operand (v : Operand)

namespace Part

def parts : Part → List Part
  | statement (.select s) => [select s]
  | statement (.insert s) => payload s.payload :: s.ttl.toList.map lifetime
  | statement (.update s) => [payload s.payload]
  | statement (.delete s) => s.condition.toList.map condition
  | statement (.get keys) | statement (.del keys) => keys.map operand
  | statement (.put s) => operand s.key :: operand s.value :: s.ttl.toList.map lifetime
  | select s => s.condition.toList.map condition
  | payload (.assignments cs) => cs.map condition
  | payload (.document v) => [operand v]
  | lifetime _ => []
  | condition (.compare _ _ v) | condition (.within _ v) => [operand v]
  | condition (.between _ low high) => [operand low, operand high]
  | condition (.all cs) | condition (.any cs) => cs.map condition
  | condition (.not c) => [condition c]
  | operand (.list items) => items.map operand
  | operand (.nested s) => [select s]
  | operand _ => []

/-- Whether a part is a statement of an accepted text, or stands in one. -/
inductive IsAccepted : Part → Prop
  | statement {text : String} {s : Statement} :
      (parseStatement text).result = .ok s → IsAccepted (statement s)
  | script {text : String} {ss : List Statement} {s : Statement} :
      (parseScript text).result = .ok ss → s ∈ ss → IsAccepted (statement s)
  | part {p q : Part} : IsAccepted p → q ∈ p.parts → IsAccepted q

def Readable : Part → Prop
  | statement s => s.Readable
  | select s => s.Readable
  | payload p => p.Readable
  | lifetime t => t.Readable
  | condition c => c.Readable
  | operand v => v.Readable

theorem readable_toList {α : Type} {f : α → Part} {a : Option α} (h : ∀ b ∈ a, (f b).Readable) :
    ∀ q ∈ a.toList.map f, q.Readable :=
  List.forall_mem_map.2 fun b hb => h b (Option.mem_toList.1 hb)

theorem readable_clause {c : Option Condition} (h : Condition.ClauseReadable c) :
    ∀ q ∈ c.toList.map condition, q.Readable :=
  readable_toList fun d hd => by
    cases hd
    exact h

theorem readable_operands {vs : List Operand} (h : ∀ v ∈ vs, v.Readable) :
    ∀ q ∈ vs.map operand, q.Readable :=
  List.forall_mem_map.2 h

theorem readable_conditions {cs : List Condition} (h : ∀ c ∈ cs, c.Readable) :
    ∀ q ∈ cs.map condition, q.Readable :=
  List.forall_mem_map.2 h

theorem Readable.parts : ∀ {p : Part}, p.Readable → ∀ q ∈ p.parts, q.Readable
  | statement (.select _), h => List.forall_mem_singleton.2 h
  | statement (.insert _), h => List.forall_mem_cons.2 ⟨h.2.1, readable_toList h.2.2⟩
  | statement (.update _), h => List.forall_mem_singleton.2 h.2
  | statement (.delete _), h => readable_clause h.2.2
  | statement (.get _), h | statement (.del _), h => readable_operands h.2
  | statement (.put _), h =>
    List.forall_mem_cons.2 ⟨h.1, List.forall_mem_cons.2 ⟨h.2.1, readable_toList h.2.2⟩⟩
  | select ⟨_, _, _, _, _, _⟩, h => readable_clause h.2.2.1
  | payload (.assignments _), h => readable_conditions fun c hc => (h.2 c hc).readable
  | payload (.document _), h => List.forall_mem_singleton.2 h.2
  | condition (.compare _ _ _), h => List.forall_mem_singleton.2 h.2
  | condition (.within _ _), h => List.forall_mem_singleton.2 h.2.2
  | condition (.between _ _ _), h =>
    List.forall_mem_cons.2 ⟨h.2.1, List.forall_mem_singleton.2 h.2.2⟩
  | condition (.all _), h | condition (.any _), h =>
    readable_conditions (Condition.allReadable_iff.1 h.2.2)
  | condition (.not _), h => List.forall_mem_singleton.2 h
  | operand (.list _), h => readable_operands (Operand.allReadable_iff.1 h.2)
  | operand (.nested _), h => List.forall_mem_singleton.2 h
  | operand (.literal _), _ | operand (.parameter _), _ | operand (.document _), _
  | lifetime _, _ => nofun

theorem IsAccepted.readable {p : Part} (h : p.IsAccepted) : p.Readable := by
  induction h with
  | statement h => exact readable_of_parseStatement h
  | script h hs => exact readable_of_parseScript h _ hs
  | part _ hq ih => exact ih.parts _ hq

theorem isAccepted_statement {s : Statement} (h : s.Readable) : (statement s).IsAccepted :=
  .statement (parseStatement_of_readable h)

/-- The readable parts are the ones of accepted texts. -/
theorem isAccepted_iff {p : Part} : p.IsAccepted ↔ p.Readable := by
  refine ⟨IsAccepted.readable, fun h => ?_⟩
  have hnull : (Operand.literal .null).Readable := trivial
  have hname : "T" ≠ "" := by decide
  cases p with
  | statement s => exact isAccepted_statement h
  | select s =>
    exact .part (isAccepted_statement (s := .select s) h) (List.mem_singleton.2 rfl)
  | payload p =>
    exact .part (isAccepted_statement (s := .update ⟨"T", p⟩) ⟨hname, h⟩)
      (List.mem_singleton.2 rfl)
  | lifetime t =>
    have hput : (Statement.put ⟨.literal .null, .literal .null, some t⟩).Readable :=
      ⟨hnull, hnull, fun _ ht => Option.some.inj ht ▸ h⟩
    exact .part (isAccepted_statement hput) (by simp [parts])
  | condition c =>
    have hdelete : (Statement.delete ⟨"T", [], some c⟩).Readable := ⟨hname, nofun, h⟩
    exact .part (isAccepted_statement hdelete) (List.mem_singleton.2 rfl)
  | operand v =>
    have hget : (Statement.get [v]).Readable := ⟨nofun, List.forall_mem_singleton.2 h⟩
    exact .part (isAccepted_statement hget) (List.mem_singleton.2 rfl)

end Part

end Parts

/-- Accepted statements, and parts of one kind in accepted statements, that are printed alike as
documents are the same; and scripts that the command line prints alike as documents have the same
statements. -/
theorem documents_identify :
    (∀ s t, Part.IsAccepted (.statement s) → Part.IsAccepted (.statement t) →
      s.toJson.PrintedAlike t.toJson → s = t) ∧
    (∀ c d, Part.IsAccepted (.condition c) → Part.IsAccepted (.condition d) →
      c.toJson.PrintedAlike d.toJson → c = d) ∧
    (∀ v w, Part.IsAccepted (.operand v) → Part.IsAccepted (.operand w) →
      v.toJson.PrintedAlike w.toJson → v = w) ∧
    (∀ p q, Part.IsAccepted (.payload p) → Part.IsAccepted (.payload q) →
      p.toJson.PrintedAlike q.toJson → p = q) ∧
    (∀ t u, Part.IsAccepted (.lifetime t) → Part.IsAccepted (.lifetime u) →
      t.toJson.PrintedAlike u.toJson → t = u) ∧
    ∀ text text' ss ts, (parseScript text).result = .ok ss → (parseScript text').result = .ok ts →
      (Command.parse true).run text = (Command.parse true).run text' → ss = ts := by
  refine ⟨fun s t hs ht h => ?_, fun c d hc hd h => ?_, fun v w hv hw h => ?_,
    fun p q hp hq h => ?_, fun t u _ _ h => Lifetime.toJson_injective h.eq,
    fun text text' ss ts hss hts h => ?_⟩
  · exact s.eq_of_toJson hs.readable ht.readable h.eq
  · exact c.eq_of_toJson hc.readable hd.readable h.eq
  · exact v.eq_of_toJson hv.readable hw.readable h.eq
  · exact p.eq_of_toJson hp.readable hq.readable h.eq
  · rw [Command.run_parse_json hss, Command.run_parse_json hts] at h
    exact Statement.all_eq_of_toJson (readable_of_parseScript hss) (readable_of_parseScript hts)
      (Json.lines_injective (Except.ok.inj h))

/-- A statement and a script in two spellings, and parts that differ: an integer and a
floating-point number, a comparison and a choice, assignments and a document, two lifetimes. -/
theorem documents_identify_spellings :
    let text := "INSERT INTO T \x7b'a': 1\x7d 120 Minutes"
    let text' := "insert T \x7b\"a\" : 1\x7d 2 hour;"
    let one := Operand.literal (.int 1)
    let one' := Operand.literal (.float (.finite (.ofInt 1)))
    let c := Condition.compare "a" .equal one
    (∃ s, (parseStatement text).result = .ok s ∧ (parseStatement text').result = .ok s) ∧
      ¬c.toJson.PrintedAlike (Condition.within "a" (.list [one])).toJson ∧
      ¬one.toJson.PrintedAlike one'.toJson ∧
      ¬(Payload.assignments [c]).toJson.PrintedAlike (Payload.document (.parameter "a")).toJson ∧
      ¬(Lifetime.mk 1 0).toJson.PrintedAlike (Lifetime.mk 0 1).toJson ∧
      ∃ ss, (parseScript "get 1; get 2").result = .ok ss ∧
        (parseScript "GET 1;; GET 2;").result = .ok ss := by
  intro text text' one one' c
  obtain ⟨hstatements, hconditions, hoperands, hpayloads, hlifetimes, hscripts⟩ :=
    documents_identify
  refine ⟨?_, fun h => ?_, fun h => ?_, fun h => ?_, fun h => ?_, ?_⟩
  · obtain ⟨s, hs⟩ := exists_ok_of_toOption (x := (parseStatement text).result) (by decide +kernel)
    obtain ⟨t, ht⟩ := exists_ok_of_toOption (x := (parseStatement text').result) (by decide +kernel)
    have hprinted : (parseStatement text).result.toOption.map (·.toJson.compact) =
        (parseStatement text').result.toOption.map (·.toJson.compact) := by decide +kernel
    rw [hs, ht] at hprinted
    obtain rfl := hstatements s t (.statement hs) (.statement ht)
      (.inl (Option.some.inj hprinted))
    exact ⟨s, hs, ht⟩
  · have hc : (Part.condition c).Readable := ⟨by decide, trivial⟩
    have hd : (Part.condition (.within "a" (.list [one]))).Readable :=
      ⟨by decide, rfl, nofun, trivial, trivial⟩
    have heq : Condition.compare "a" .equal one = .within "a" (.list [one]) :=
      hconditions _ _ (Part.isAccepted_iff.2 hc) (Part.isAccepted_iff.2 hd) h
    cases heq
  · have hv : (Part.operand one).Readable := trivial
    have hw : (Part.operand one').Readable := trivial
    have heq : Operand.literal (.int 1) = .literal (.float (.finite (.ofInt 1))) :=
      hoperands _ _ (Part.isAccepted_iff.2 hv) (Part.isAccepted_iff.2 hw) h
    cases heq
  · have hp : (Part.payload (.assignments [c])).Readable :=
      ⟨nofun, List.forall_mem_singleton.2 ⟨"a", one, rfl, by decide, trivial⟩⟩
    have hq : (Part.payload (.document (.parameter "a"))).Readable :=
      ⟨.inr ⟨"a", rfl⟩, show Name.isDotted true _ = true by decide⟩
    cases hpayloads _ _ (Part.isAccepted_iff.2 hp) (Part.isAccepted_iff.2 hq) h
  · have ht : (Part.lifetime ⟨1, 0, by decide⟩).Readable := by
      show Lifetime.Readable _
      unfold Lifetime.Readable
      decide
    have hu : (Part.lifetime ⟨0, 1, by decide⟩).Readable := by
      show Lifetime.Readable _
      unfold Lifetime.Readable
      decide
    cases hlifetimes _ _ (Part.isAccepted_iff.2 ht) (Part.isAccepted_iff.2 hu) h
  · obtain ⟨ss, hss⟩ :=
      exists_ok_of_toOption (x := (parseScript "get 1; get 2").result) (by decide +kernel)
    obtain ⟨ts, hts⟩ :=
      exists_ok_of_toOption (x := (parseScript "GET 1;; GET 2;").result) (by decide +kernel)
    have hprinted : ((Command.parse true).run "get 1; get 2").toOption =
        ((Command.parse true).run "GET 1;; GET 2;").toOption := by decide +kernel
    have hrun : (Command.parse true).run "get 1; get 2" =
        (Command.parse true).run "GET 1;; GET 2;" := by
      rw [Command.run_parse_json hss, Command.run_parse_json hts] at hprinted ⊢
      exact congrArg Except.ok (Option.some.inj hprinted)
    obtain rfl := hscripts _ _ ss ts hss hts hrun
    exact ⟨ss, hss, hts⟩

end StoreQuery
