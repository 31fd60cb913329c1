import Mathlib.Data.List.Induction
import StoreQuery.Proofs.Text.Bytes
import StoreQuery.Provider.Registry

/-! # The history of a registry

A registry is what registrations have made of the empty one. Settings are answered by the factory
that was registered last under their provider, among those of the same kind of store. The registry
of a process is the first one that was installed, whatever is asked of it afterwards.
-/

namespace StoreQuery

namespace Factories

variable {α : Type} {fs : Factories α} {rs : List (String × Factory α)} {tag t : String}
  {f g : Factory α} {s : Settings}

section Insert

theorem find?_cons : find? ((t, g) :: fs) tag = if tag = t then some g else find? fs tag := by
  rw [find?, List.lookup_cons]
  split
  · next h => rw [if_pos (beq_iff_eq.1 h)]
  · next h => rw [if_neg (beq_eq_false_iff_ne.1 h), find?]

/-- The factory of a tag is the one that was put under it last, whatever the order of the tags. -/
theorem find?_insert : (fs.insert tag f).find? t = if t = tag then some f else fs.find? t := by
  induction fs with
  | nil => exact find?_cons
  | cons p fs ih =>
    obtain ⟨u, g⟩ := p
    rw [insert]
    split
    · exact find?_cons
    · split
      · next heq =>
        rw [find?_cons, find?_cons, heq]
        split <;> rfl
      · next hne =>
        rw [find?_cons, find?_cons, ih]
        by_cases h : t = tag
        · rw [if_pos h, if_neg fun hu => hne (h.symm.trans hu), if_pos h]
        · rw [if_neg h, if_neg h]

theorem mem_tags_insert : t ∈ (fs.insert tag f).tags ↔ t = tag ∨ t ∈ fs.tags := by
  induction fs with
  | nil => simp [insert, tags]
  | cons p fs ih =>
    obtain ⟨u, g⟩ := p
    simp only [tags] at ih ⊢
    rw [insert]
    split
    · simp
    · split
      · next heq => simp [heq]
      · simp only [List.map_cons, List.mem_cons, ih]
        exact or_left_comm

theorem pairwise_tags_insert (h : fs.tags.Pairwise (· < ·)) :
    (fs.insert tag f).tags.Pairwise (· < ·) := by
  induction fs with
  | nil => exact List.pairwise_singleton ..
  | cons p fs ih =>
    obtain ⟨u, g⟩ := p
    obtain ⟨hu, hfs⟩ := List.pairwise_cons.1 h
    rw [insert]
    split
    · next hlt =>
      refine .cons ?_ h
      rintro v (_ | ⟨_, hv⟩)
      · exact hlt
      · exact String.lt_trans hlt (hu v hv)
    · split
      · next heq => exact heq ▸ h
      · next hnlt hne =>
        refine .cons ?_ (ih hfs)
        intro v hv
        rcases mem_tags_insert.1 hv with rfl | hv
        · exact lt_of_le_of_ne (not_lt.1 hnlt) (Ne.symm hne)
        · exact hu v hv

end Insert

section Make

theorem make_of_find? (h : fs.find? s.provider = some f) :
    fs.make s = (f s).mapError .store := by
  rw [make, h]
  cases hf : f s <;> simp [Except.mapError, hf]

theorem make_eq_unknownProvider_iff :
    fs.make s = .error (.unknownProvider s.provider) ↔ fs.find? s.provider = none := by
  constructor
  · intro h
    cases hf : fs.find? s.provider with
    | none => rfl
    | some f =>
      rw [make_of_find? hf] at h
      cases hs : f s <;> rw [hs] at h <;> cases h
  · intro h
    rw [make, h]

end Make

/-- The factories that are left of a history of them, each under a tag. -/
def ofHistory (rs : List (String × Factory α)) : Factories α :=
  rs.foldl (fun fs r => fs.insert r.1 r.2) []

theorem ofHistory_concat (r : String × Factory α) :
    ofHistory (rs ++ [r]) = (ofHistory rs).insert r.1 r.2 := by
  rw [ofHistory, List.foldl_concat, ofHistory]

/-- The factory of a tag is the last one in the history. -/
theorem find?_ofHistory : (ofHistory rs).find? t = rs.reverse.lookup t := by
  induction rs using List.reverseRecOn with
  | nil => rfl
  | append_singleton rs r ih =>
    rw [ofHistory_concat, find?_insert, ih, List.reverse_concat]
    exact find?_cons.symm

theorem mem_tags_ofHistory : t ∈ (ofHistory rs).tags ↔ ∃ f, (t, f) ∈ rs := by
  induction rs using List.reverseRecOn with
  | nil => simp [ofHistory, tags]
  | append_singleton rs r ih =>
    obtain ⟨u, g⟩ := r
    simp [ofHistory_concat, mem_tags_insert, ih, or_comm, exists_or]

theorem pairwise_tags_ofHistory : (ofHistory rs).tags.Pairwise (· < ·) := by
  induction rs using List.reverseRecOn with
  | nil => exact .nil
  | append_singleton rs r ih =>
    rw [ofHistory_concat]
    exact pairwise_tags_insert ih

end Factories

/-- Stores are found, and tags are listed, as a history of factories asks for. -/
structure Resolves {α : Type} (find : Settings → Except QueryError α) (tags : List String)
    (rs : List (String × Factory α)) : Prop where
  /-- The last factory under a provider is run with the settings, and its failure comes back. -/
  find_last : ∀ s before f after, rs = before ++ (s.provider, f) :: after →
    (∀ g, (s.provider, g) ∉ after) → find s = (f s).mapError .store
  find_unknown_iff : ∀ s, find s = .error (.unknownProvider s.provider) ↔
    ∀ f, (s.provider, f) ∉ rs
  /-- So each tag is listed once. -/
  tags_increasing : tags.Pairwise fun t u => Text.bytes t < Text.bytes u
  mem_tags_iff : ∀ t, t ∈ tags ↔ ∃ f, (t, f) ∈ rs

theorem Factories.resolves {α : Type} (rs : List (String × Factory α)) :
    Resolves (ofHistory rs).make (ofHistory rs).tags rs where
  find_last s before f after hrs hafter := by
    apply make_of_find?
    rw [find?_ofHistory, List.lookup_eq_some_iff, hrs]
    refine ⟨after.reverse, before.reverse, by simp, ?_⟩
    rintro ⟨t, g⟩ hmem
    rw [bne_iff_ne]
    rintro rfl
    exact hafter g (List.mem_reverse.1 hmem)
  find_unknown_iff s := by
    rw [make_eq_unknownProvider_iff, find?_ofHistory, List.lookup_eq_none_iff]
    simp only [List.mem_reverse, bne_iff_ne, Prod.forall]
    constructor
    · exact fun h f hmem => h _ f hmem rfl
    · rintro h t f hmem rfl
      exact h f hmem
  tags_increasing := pairwise_tags_ofHistory.imp Text.lt_iff_bytes_lt.1
  mem_tags_iff t := mem_tags_ofHistory

inductive Registration (δ β : Type) where
  | database (tag : String) (f : Factory δ)
  | bucket (tag : String) (f : Factory β)

namespace Registration

variable {δ β : Type}

def database? : Registration δ β → Option (String × Factory δ)
  | database tag f => some (tag, f)
  | bucket .. => none

def bucket? : Registration δ β → Option (String × Factory β)
  | bucket tag f => some (tag, f)
  | database .. => none

end Registration

namespace Registry

variable {δ β : Type}

def register (r : Registry δ β) : Registration δ β → Registry δ β
  | .database tag f => r.insertDatabase tag f
  | .bucket tag f => r.insertBucket tag f

/-- The registry after registrations that start without any. -/
def ofRegistrations (os : List (Registration δ β)) : Registry δ β :=
  os.foldl register empty

theorem ofRegistrations_eq (os : List (Registration δ β)) :
    ofRegistrations os =
      ⟨.ofHistory (os.filterMap Registration.database?),
        .ofHistory (os.filterMap Registration.bucket?)⟩ := by
  induction os using List.reverseRecOn with
  | nil => rfl
  | append_singleton os o ih =>
    rw [ofRegistrations, List.foldl_concat, ← ofRegistrations, ih, List.filterMap_append,
      List.filterMap_append]
    cases o with
    | database | bucket =>
      simp [register, insertDatabase, insertBucket, List.filterMap_cons, Registration.database?,
        Registration.bucket?, Factories.ofHistory_concat]

/-- What is registered as a bucket changes nothing for databases, and the other way. -/
theorem ofRegistrations_append_cons (before after : List (Registration δ β)) (tag : String) :
    (∀ f, (ofRegistrations (before ++ .bucket tag f :: after)).databases =
      (ofRegistrations (before ++ after)).databases) ∧
    ∀ f, (ofRegistrations (before ++ .database tag f :: after)).buckets =
      (ofRegistrations (before ++ after)).buckets := by
  simp [ofRegistrations_eq, List.filterMap_append, List.filterMap_cons, Registration.database?,
    Registration.bucket?]

end Registry

inductive Request (δ β : Type) where
  | install (r : Registry δ β)
  | current
  | database (s : Settings)
  | bucket (s : Settings)

inductive Answer (δ β : Type) where
  | installed (result : Except QueryError (Registry δ β))
  | current (r : Registry δ β)
  | database (result : Except QueryError δ)
  | bucket (result : Except QueryError β)

def Request.installed? {δ β : Type} : Request δ β → Option (Registry δ β)
  | install r => some r
  | _ => none

namespace Installation

variable {δ β : Type} {i : Installation δ β} {q : Request δ β} {qs : List (Request δ β)}

/-- What a request leaves of an installation, and its answer. What is installed is given back. -/
def step (i : Installation δ β) : Request δ β → Installation δ β × Answer δ β
  | .install r =>
    match i.install r with
    | .ok j => (j, .installed (.ok j.current))
    | .error e => (i, .installed (.error e))
  | .current => (i, .current i.current)
  | .database s => (i, .database (i.current.database s))
  | .bucket s => (i, .bucket (i.current.bucket s))

/-- The installation after the requests of a process, which begins without a registry. -/
def after (qs : List (Request δ β)) : Installation δ β :=
  qs.foldl (fun i q => (i.step q).1) none

/-- The answer to a request that comes after others. -/
def answer (before : List (Request δ β)) (q : Request δ β) : Answer δ β :=
  ((after before).step q).2

/-- A request changes an installation only if it is the first to install a registry. -/
theorem registry_step : (i.step q).1.registry = i.registry.or q.installed? := by
  obtain ⟨r⟩ := i
  cases q with
  | install r' => cases r <;> rfl
  | _ => cases r <;> rfl

theorem registry_foldl_step :
    (qs.foldl (fun i q => (i.step q).1) i).registry =
      i.registry.or (qs.findSome? Request.installed?) := by
  induction qs generalizing i with
  | nil => exact (Option.or_none ..).symm
  | cons q qs ih =>
    rw [List.foldl_cons, ih, registry_step, Option.or_assoc, List.findSome?_cons]
    cases q.installed? <;> rfl

theorem registry_after : (after qs).registry = qs.findSome? Request.installed? :=
  registry_foldl_step

structure KeepsFirst (qs : List (Request δ β)) : Prop where
  /-- Without an installation the registry is empty, and the next one succeeds. -/
  fresh : (∀ r, .install r ∉ qs) → (after qs).current = .empty ∧
    ∀ r, answer qs (.install r) = .installed (.ok r)
  /-- The first installed registry stays, and every later one is refused. -/
  kept : ∀ before r later, qs = before ++ .install r :: later → (∀ r', .install r' ∉ before) →
    (after qs).current = r ∧
      ∀ r', answer qs (.install r') = .installed (.error .alreadyInstalled) ∧
        after (qs ++ [.install r']) = after qs
  /-- Lookups change nothing, and are those of the registry of the process. -/
  current : answer qs .current = .current (after qs).current ∧
    after (qs ++ [.current]) = after qs
  database : ∀ s, answer qs (.database s) = .database ((after qs).current.database s) ∧
    after (qs ++ [.database s]) = after qs
  bucket : ∀ s, answer qs (.bucket s) = .bucket ((after qs).current.bucket s) ∧
    after (qs ++ [.bucket s]) = after qs

theorem after_concat (qs : List (Request δ β)) (q : Request δ β) :
    after (qs ++ [q]) = ((after qs).step q).1 := by
  rw [after, List.foldl_concat, after]

theorem registry_eq_none (h : ∀ r, .install r ∉ qs) : (after qs).registry = Option.none := by
  rw [registry_after, List.findSome?_eq_none_iff]
  intro q hq
  cases q with
  | install r => exact absurd hq (h r)
  | _ => rfl

theorem keepsFirst (qs : List (Request δ β)) : KeepsFirst qs where
  fresh h := by
    have hnone := registry_eq_none h
    constructor
    · rw [Installation.current, hnone]
      rfl
    · intro r
      rw [answer, step, install, hnone]
      rfl
  kept before r later hqs hbefore := by
    have hsome : (after qs).registry = some r := by
      have hnone := registry_eq_none hbefore
      rw [registry_after] at hnone ⊢
      rw [hqs, List.findSome?_append, hnone]
      rfl
    have hrefused : ∀ r', (after qs).step (.install r') =
        (after qs, .installed (.error .alreadyInstalled)) := by
      intro r'
      rw [step, install, hsome]
    constructor
    · rw [Installation.current, hsome]
      rfl
    · intro r'
      rw [answer, after_concat, hrefused]
      exact ⟨rfl, rfl⟩
  current := ⟨rfl, after_concat ..⟩
  database _ := ⟨rfl, after_concat ..⟩
  bucket _ := ⟨rfl, after_concat ..⟩

end Installation

/-- Settings are answered by the last factory that was registered under their provider for the kind
of store, and a process keeps the first registry that is installed. -/
theorem registries_resolve {δ β : Type} (os : List (Registration δ β)) (qs : List (Request δ β)) :
    (let r := Registry.ofRegistrations os
    Resolves r.database r.databases.tags (os.filterMap Registration.database?) ∧
      Resolves r.bucket r.buckets.tags (os.filterMap Registration.bucket?)) ∧
    (∀ before after tag,
      (∀ f, (Registry.ofRegistrations (before ++ .bucket tag f :: after)).databases =
        (Registry.ofRegistrations (before ++ after : List (Registration δ β))).databases) ∧
      ∀ f, (Registry.ofRegistrations (before ++ .database tag f :: after)).buckets =
        (Registry.ofRegistrations (before ++ after : List (Registration δ β))).buckets) ∧
    Installation.KeepsFirst qs := by
  refine ⟨?_, Registry.ofRegistrations_append_cons, Installation.keepsFirst qs⟩
  rw [Registry.ofRegistrations_eq]
  exact ⟨Factories.resolves _, Factories.resolves _⟩

/-- A factory that is replaced among databases only, and a registry that comes too late. -/
theorem registries_resolve_replaced :
    let os : List (Registration Nat Nat) :=
      [.database "é" fun _ => .ok 1, .bucket "é" fun _ => .ok 2, .database "z" fun _ => .ok 3,
        .database "é" fun s => .error s.provider]
    let first := Registry.ofRegistrations os
    let second : Registry Nat Nat := .ofRegistrations [.database "a" fun _ => .ok 4]
    let before := [Request.database (.ofProvider "é")]
    let qs := before ++ [.install first, .bucket (.ofProvider "é")]
    first.database (.ofProvider "é") = .error (.store "é") ∧
    first.bucket (.ofProvider "é") = .ok 2 ∧
    first.bucket (.ofProvider "z") = .error (.unknownProvider "z") ∧
    "z" ∈ first.databases.tags ∧ "z" ∉ first.buckets.tags ∧
    (Installation.after before).current = (.empty : Registry Nat Nat) ∧
    (Installation.after qs).current = first ∧
    Installation.answer qs (.install second) = .installed (.error .alreadyInstalled) ∧
    Installation.after (qs ++ [.install second]) = Installation.after qs := by
  intro os first second before qs
  obtain ⟨⟨hdatabase, hbucket⟩, -, hbefore⟩ := registries_resolve os before
  obtain ⟨-, -, hprocess⟩ := registries_resolve os qs
  have hone : ∀ f : Factory Nat, ("z", f) ∉ os.filterMap Registration.bucket? := by
    intro f
    simp [os, Registration.bucket?]
  have hlookup : ∀ r, Request.install r ∉ before := by simp [before]
  obtain ⟨hcurrent, hlater⟩ := hprocess.kept before first _ rfl hlookup
  refine ⟨?_, ?_, (hbucket.find_unknown_iff _).2 hone, ?_, ?_, (hbefore.fresh hlookup).1, hcurrent,
    hlater second⟩
  · exact hdatabase.find_last (.ofProvider "é") [_, _] _ [] rfl fun _ => List.not_mem_nil
  · exact hbucket.find_last (.ofProvider "é") [] _ [] rfl fun _ => List.not_mem_nil
  · exact (hdatabase.mem_tags_iff "z").2 ⟨_, List.mem_cons_of_mem _ List.mem_cons_self⟩
  · intro h
    obtain ⟨f, hf⟩ := (hbucket.mem_tags_iff "z").1 h
    exact hone f hf

end StoreQuery
