import StoreQuery.Proofs.Grammar.Termination

/-! # The trails of rules

The trail of a rule holds the productions that begin while it reads, and the turns of their loops,
in their order and each with the number of tokens that are left. It is put together in the way the
rule is: a production stands in front of what begins in it, one rule after the other leaves one
trail after the other, and of a rule that fails there remains what has begun before.
-/

namespace StoreQuery.Grammar

/-- A production of the grammar, or a turn of the loop in one. Of two that begin before the same
token the one that is named first begins first. -/
inductive Stage where
  | script
  | statement
  | keys
  | payload
  | assignments
  | payloadDocument
  | filter
  | conjunctionTurn
  | disjunctionTurn
  | ordering
  | orderingTurn
  | paging
  | pagingTurn
  | keysTurn
  | scriptTurn
  | body
  | select
  | insert
  | insertInto
  | update
  | delete
  | put
  | fields
  | fieldsTurn
  | sortKey
  | lifetime
  | disjunction
  | conjunction
  | unary
  | test
  | choices
  | choicesTurn
  | braces
  | bracesTurn
  | assignment
  | assignmentsTurn
  | value
  | arrayBody
  | arrayTurn
  | document
  | objectBody
  | objectFrom
  | objectTurn
  | member
  | negative
  deriving DecidableEq

structure Visit where
  stage : Stage
  /-- The number of tokens that are left. -/
  left : Nat
  deriving DecidableEq

/-- What begins while a rule reads from a cursor, in its order. -/
structure Trail {α : Type} (r : Rule α) where
  visits : Cursor → List Visit

namespace Trail

section Steps

variable {α β : Type} {r r' : Rule α} {f : α → Rule β} {item : Rule α} {separator : Token}

def plain : Trail r :=
  ⟨fun _ => []⟩

def enter (s : Stage) (w : Trail r) : Trail r :=
  ⟨fun c => ⟨s, c.left⟩ :: w.visits c⟩

def bind (w : Trail r) (g : ∀ a, Trail (f a)) : Trail (r >>= f) :=
  ⟨fun c => w.visits c ++
    match r c with
    | .done a d => (g a).visits d
    | .failed _ _ | .exhausted => []⟩

theorem visits_bind (w : Trail r) (g : ∀ a, Trail (f a)) (c : Cursor) :
    (bind w g).visits c = w.visits c ++
      match r c with
      | .done a d => (g a).visits d
      | .failed _ _ | .exhausted => [] := rfl

theorem visits_bind_of_done {w : Trail r} {g : ∀ a, Trail (f a)} {c d : Cursor} {a : α}
    (h : r c = .done a d) : (bind w g).visits c = w.visits c ++ (g a).visits d := by
  rw [visits_bind, h]

theorem visits_bind_of_not_done {w : Trail r} {g : ∀ a, Trail (f a)} {c : Cursor}
    (h : ∀ a d, r c ≠ .done a d) : (bind w g).visits c = w.visits c := by
  rw [visits_bind]
  cases hr : r c with
  | done a d => exact absurd hr (h a d)
  | failed | exhausted => exact List.append_nil _

def ite {p : Prop} [Decidable p] (w : Trail r) (w' : Trail r') : Trail (if p then r else r') :=
  ⟨fun c => if p then w.visits c else w'.visits c⟩

/-- Of a loop that may have a turn more than tokens are left. -/
def loop {r : Nat → Rule α} (w : ∀ limit, Trail (r limit)) :
    Trail fun c => r (c.rest.length + 1) c :=
  ⟨fun c => (w (c.rest.length + 1)).visits c⟩

def furtherUpTo (turn : Stage) (w : Trail item) :
    (limit : Nat) → Trail (Rule.furtherUpTo separator item limit)
  | 0 => plain
  | limit + 1 =>
    enter turn (bind plain fun _ =>
      ite (bind w fun _ => bind (furtherUpTo turn w limit) fun _ => plain) plain)

def further (turn : Stage) (w : Trail item) : Trail (Rule.further separator item) :=
  loop (furtherUpTo turn w)

def list (turn : Stage) (w : Trail item) : Trail (Rule.list item) :=
  bind w fun _ => bind (further turn w) fun _ => plain

end Steps

section Document

def negative : Trail Grammar.negative :=
  enter .negative plain

variable {value : Rule Json} (w : Trail value)

def member : Trail (Grammar.member value) :=
  enter .member <| bind plain fun _ => bind plain fun _ => bind w fun _ => plain

def objectFrom (key : String) : Trail (Grammar.objectFrom key value) :=
  enter .objectFrom <| bind plain fun _ => bind w fun _ =>
    bind (further .objectTurn (member w)) fun _ => bind plain fun _ => plain

def objectBody : Trail (Grammar.objectBody value) :=
  enter .objectBody <| bind plain fun _ => ite plain (bind plain fun key => objectFrom w key)

def arrayBody : Trail (Grammar.arrayBody value) :=
  enter .arrayBody <| bind plain fun _ =>
    ite plain (bind (list .arrayTurn w) fun _ => bind plain fun _ => plain)

def document : (depth : Nat) → Trail (Grammar.document depth)
  | 0 => plain
  | depth + 1 =>
    enter .document <| bind plain fun t =>
      match t with
      | .symbol .minus => bind plain fun _ => bind negative fun _ => plain
      | .symbol .leftBrace => bind plain fun _ => objectBody (document depth)
      | .symbol .leftBracket => bind plain fun _ => arrayBody (document depth)
      | _ => plain

end Document

section Clauses

def fields : Trail Grammar.fields :=
  enter .fields <| bind plain fun _ =>
    ite plain (bind plain fun _ => ite plain (list .fieldsTurn plain))

def sortKey : Trail Grammar.sortKey :=
  enter .sortKey plain

def ordering : Trail Grammar.ordering :=
  enter .ordering <| bind plain fun _ =>
    ite (bind plain fun _ => list .orderingTurn sortKey) plain

def paging : Trail Grammar.paging :=
  enter .paging <| enter .pagingTurn <| bind plain fun skip =>
    match skip with
    | some _ => enter .pagingTurn (bind plain fun _ => plain)
    | none => bind plain fun limit =>
      match limit with
      | some _ => enter .pagingTurn (bind plain fun _ => plain)
      | none => plain

end Clauses

end Trail

structure Trails (depth : Nat) where
  value : Trail (value depth)
  braces : Trail (braces depth)
  select : Trail (select depth)
  filter : Trail (filter depth)
  disjunction : Trail (disjunction depth)
  conjunction : Trail (conjunction depth)
  unary : Trail (unary depth)
  test : ∀ field, Trail (test depth field)
  choices : Trail (choices depth)

namespace Trails

variable {depth : Nat} (w : Trails depth)

def valueSucc : Trail (Grammar.value (depth + 1)) :=
  .enter .value <| .bind .plain fun t =>
    match t with
    | .parameter _ => .plain
    | .symbol .minus => .bind .plain fun _ => .bind Trail.negative fun _ => .plain
    | .symbol .leftBrace => .bind .plain fun _ => w.braces
    | .symbol .leftBracket => .bind (Trail.document (depth + 1)) fun _ => .plain
    | .symbol .leftParen =>
      .bind .plain fun _ => .bind w.select fun _ => .bind .plain fun _ => .plain
    | _ => .plain

def bracesSucc : Trail (Grammar.braces (depth + 1)) :=
  .enter .braces <| .bind .plain fun t =>
    match t with
    | .text s => .bind .plain fun _ => .bind .plain fun _ =>
      .ite (.bind (Trail.objectFrom (Trail.document depth) s) fun _ => .plain)
        (.bind (.further .bracesTurn w.value) fun _ => .bind .plain fun _ => .plain)
    | .symbol .rightBrace => .plain
    | .integer _ | .float _ | .name _ | .parameter _ | .keyword _ | .invalid _ | .eof
    | .symbol .equal | .symbol .less | .symbol .lessEqual | .symbol .greater
    | .symbol .greaterEqual | .symbol .minus | .symbol .star | .symbol .leftParen
    | .symbol .rightParen | .symbol .leftBrace | .symbol .leftBracket | .symbol .rightBracket
    | .symbol .comma | .symbol .colon | .symbol .semicolon =>
      .bind (.list .bracesTurn w.value) fun _ => .bind .plain fun _ => .plain

def selectSucc : Trail (Grammar.select (depth + 1)) :=
  .enter .select <| .bind .plain fun _ => .bind Trail.fields fun _ => .bind .plain fun _ =>
    .bind .plain fun _ => .bind w.filter fun _ => .bind Trail.ordering fun _ =>
      .bind Trail.paging fun _ => .plain

def filterSucc : Trail (Grammar.filter (depth + 1)) :=
  .enter .filter <| .bind .plain fun _ => .ite (.bind w.disjunction fun _ => .plain) .plain

def disjunctionSucc : Trail (Grammar.disjunction (depth + 1)) :=
  .enter .disjunction <| .bind w.conjunction fun _ =>
    .bind (.further .disjunctionTurn w.conjunction) fun _ => .plain

def conjunctionSucc : Trail (Grammar.conjunction (depth + 1)) :=
  .enter .conjunction <| .bind w.unary fun _ =>
    .bind (.further .conjunctionTurn w.unary) fun _ => .plain

def unarySucc : Trail (Grammar.unary (depth + 1)) :=
  .enter .unary <| .bind .plain fun _ =>
    .ite (.bind w.unary fun _ => .plain) <| .bind .plain fun _ =>
      .ite (.bind w.disjunction fun _ => .bind .plain fun _ => .plain) (.bind .plain w.test)

def testSucc (field : String) : Trail (Grammar.test (depth + 1) field) :=
  .enter .test <| .bind .plain fun _ =>
    .ite (.bind w.choices fun _ => .plain) <| .bind .plain fun _ =>
      .ite (.bind w.value fun _ => .bind .plain fun _ => .bind w.value fun _ => .plain) <|
        .bind .plain fun t =>
          match comparison? t with
          | some _ => .bind .plain fun _ => .bind w.value fun _ => .plain
          | none => .plain

def choicesSucc : Trail (Grammar.choices (depth + 1)) :=
  .enter .choices <| .bind .plain fun _ =>
    .ite
      (.bind .plain fun _ =>
        .ite (.bind w.select fun _ => .bind .plain fun _ => .plain)
          (.bind (.list .choicesTurn w.value) fun _ => .bind .plain fun _ => .plain))
      w.value

end Trails

def trails : (depth : Nat) → Trails depth
  | 0 => ⟨.plain, .plain, .plain, .plain, .plain, .plain, .plain, fun _ => .plain, .plain⟩
  | depth + 1 =>
    let w := trails depth
    ⟨w.valueSucc, w.bracesSucc, w.selectSucc, w.filterSucc, w.disjunctionSucc, w.conjunctionSucc,
      w.unarySucc, w.testSucc, w.choicesSucc⟩

namespace Trail

variable (depth : Nat)

def value : Trail (Grammar.value depth) :=
  (trails depth).value

def keysUpTo : (limit : Nat) → Trail (Grammar.keysUpTo depth limit)
  | 0 => plain
  | limit + 1 =>
    enter .keysTurn <| bind plain fun _ =>
      ite (bind (value depth) fun _ => bind (keysUpTo limit) fun _ => plain) <| bind plain fun _ =>
        ite (bind (value depth) fun _ => bind (keysUpTo limit) fun _ => plain) plain

def keys : Trail (Grammar.keys depth) :=
  enter .keys <| bind (value depth) fun _ => bind (loop (keysUpTo depth)) fun _ => plain

def assignment : Trail (Grammar.assignment depth) :=
  enter .assignment <| bind plain fun _ => bind plain fun _ => bind (value depth) fun _ => plain

def assignments : Trail (Grammar.assignments depth) :=
  enter .assignments <| bind plain fun _ =>
    ite (bind (list .assignmentsTurn (assignment depth)) fun _ => bind plain fun _ => plain) plain

def payloadDocument : Trail (Grammar.payloadDocument depth) :=
  enter .payloadDocument <| bind plain fun t =>
    match t with
    | .symbol .leftBrace =>
      bind plain fun _ => bind (objectBody (document depth)) fun _ => plain
    | .symbol .leftBracket => bind (document depth) fun _ => plain
    | .parameter _ => bind (value depth) fun _ => plain
    | _ => plain

def payload : Trail (Grammar.payload depth) :=
  enter .payload <| bind (assignments depth) fun _ => bind (payloadDocument depth) fun _ => plain

def lifetime : Trail Grammar.lifetime :=
  enter .lifetime plain

def insertInto : Trail (Grammar.insertInto depth) :=
  enter .insertInto <| bind plain fun _ => bind (payload depth) fun _ => bind plain fun t =>
    match t with
    | .integer _ => bind lifetime fun _ => plain
    | _ => plain

def insert : Trail (Grammar.insert depth) :=
  enter .insert <| bind plain fun _ => insertInto depth

def update : Trail (Grammar.update depth) :=
  enter .update <| bind plain fun _ => bind (payload depth) fun _ => plain

def delete : Trail (Grammar.delete depth) :=
  enter .delete <| bind fields fun _ => bind plain fun _ => bind plain fun _ =>
    bind (trails depth).filter fun _ => plain

def put : Trail (Grammar.put depth) :=
  enter .put <| bind plain fun _ => bind (value depth) fun _ => bind plain fun _ =>
    bind (value depth) fun _ => bind plain fun _ =>
      ite (bind lifetime fun _ => bind plain fun _ => bind plain fun _ => plain)
        (bind plain fun _ => bind plain fun _ => plain)

def body : Trail (Grammar.body depth) :=
  enter .body <| bind plain fun t =>
    match t with
    | .keyword .select => bind (trails depth).select fun _ => plain
    | .keyword .insert => bind plain fun _ => bind (insert depth) fun _ => plain
    | .keyword .update => bind plain fun _ => bind (update depth) fun _ => plain
    | .keyword .delete => bind plain fun _ => bind (delete depth) fun _ => plain
    | .keyword .get | .keyword .del => bind plain fun _ => bind (keys depth) fun _ => plain
    | .keyword .put => bind plain fun _ => bind (put depth) fun _ => plain
    | _ => plain

def statement : Trail (Grammar.statement depth) :=
  enter .statement <| bind (body depth) fun _ => plain

def scriptUpTo : (limit : Nat) → Trail (Grammar.scriptUpTo depth limit)
  | 0 => plain
  | limit + 1 =>
    enter .scriptTurn <| bind plain fun _ => ite (scriptUpTo limit) <| bind plain fun _ =>
      ite plain <| bind (body depth) fun _ => bind plain fun _ =>
        ite (bind (scriptUpTo limit) fun _ => plain) plain

def script : Trail (Grammar.script depth) :=
  enter .script (loop (scriptUpTo depth))

end Trail

end StoreQuery.Grammar
