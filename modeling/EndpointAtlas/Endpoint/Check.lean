import EndpointAtlas.Endpoint.Record
import EndpointAtlas.Fault
import EndpointAtlas.Text.Bytes

/-!
# Checking the fields of a record

A record is read from a mapping field by field. Every problem is kept, in the order of the fields,
so `Checked` is an applicative functor that joins the problems of both sides.

The functions `Check.parameter`, `Check.body`, `Check.endpoint` and `Check.failure` read what
`toMembers` writes, and more: members that name no field are passed over, and a text may be given as
bytes and a truth value by a word or a number.
-/

namespace EndpointAtlas

open ValidationError (Entry Problem)

/-- A value that was accepted, or the problems found. -/
inductive Checked (α : Type) where
  | ok (a : α)
  | failed (entries : List Entry)
  deriving Repr

namespace Checked

variable {α β : Type}

/-- Both sides are checked, and the problems of both are kept. -/
def seq (f : Checked (α → β)) (x : Checked α) : Checked β :=
  match f, x with
  | .ok f, .ok a => .ok (f a)
  | .ok _, .failed es => .failed es
  | .failed es, .ok _ => .failed es
  | .failed es, .failed es' => .failed (es ++ es')

instance : Applicative Checked where
  pure := .ok
  seq f x := seq f (x ())

/-- One problem of the value itself. -/
def problem (p : Problem) : Checked α := .failed [⟨[], p⟩]

/-- The problems of a value as problems of a field. -/
def inField (segment : String) : Checked α → Checked α
  | .ok a => .ok a
  | .failed es => .failed (es.map fun e => { e with field := segment :: e.field })

/-- The results for all items of a list. -/
def all (check : α → Checked β) : List α → Checked (List β)
  | [] => .ok []
  | a :: rest => List.cons <$> check a <*> all check rest

/-- The results for all items of a list, with problems under their indices. -/
def allFrom (check : α → Checked β) : Nat → List α → Checked (List β)
  | _, [] => .ok []
  | i, a :: rest =>
    List.cons <$> (check a).inField (toString i) <*> allFrom check (i + 1) rest

/-- The record, or its validation error. -/
def toExcept (type : RecordType) : Checked α → Except Fault α
  | .ok a => .ok a
  | .failed es => .error (.invalid ⟨type, es⟩)

end Checked

namespace Check

variable {α : Type}

/-- A text, or bytes that are one. -/
def text : Value → Checked String
  | .str s => .ok s
  | .scalar (.bytes bs) =>
    match Text.decode bs with
    | some cs => .ok (String.ofList cs)
    | none => .problem .undecodableText
  | _ => .problem .notText

/-- Any value. -/
def any (v : Value) : Checked Value := .ok v

/-- A mapping. -/
def mapping : Value → Checked Members
  | .map ms => .ok ms
  | _ => .problem .notMapping

/-- The words for the two truth values. -/
def truthWords : List (String × Bool) :=
  [("0", false), ("off", false), ("f", false), ("false", false), ("n", false), ("no", false),
    ("1", true), ("on", true), ("t", true), ("true", true), ("y", true), ("yes", true)]

/-- A truth value given as a word, in any case. -/
def truthOfWord (cs : List Char) : Checked Bool :=
  match truthWords.lookup (String.ofList (cs.map Char.toLower)) with
  | some b => .ok b
  | none => .problem .unreadableTruthValue

/-- The first integer beyond 64 bits with a sign. -/
def wordEnd : Int := 0x8000000000000000

/-- A truth value given as an integer. -/
def truthOfInt (n : Int) : Checked Bool :=
  if n = 0 then .ok false
  else if n = 1 then .ok true
  else .problem .unreadableTruthValue

/-- A truth value, or a word or number that stands for one. A number counts as one if it is an
integer of 64 bits; a floating one has to be greater than the least of these. -/
def truth : Value → Checked Bool
  | .bool b => .ok b
  | .str s => truthOfWord s.toList
  | .scalar (.bytes bs) =>
    match Text.decode bs with
    | some cs => truthOfWord cs
    | none => .problem .unreadableTruthValue
  | .int n => if -wordEnd ≤ n ∧ n < wordEnd then truthOfInt n else .problem .notTruthValue
  | .float x =>
    match x.toInt? with
    | some n => if -wordEnd < n ∧ n < wordEnd then truthOfInt n else .problem .notTruthValue
    | none => .problem .notTruthValue
  | _ => .problem .notTruthValue

/-- The place of a parameter. -/
def place : Value → Checked Place
  | .str "path" => .ok .path
  | .str "query" => .ok .query
  | .str "header" => .ok .header
  | .str "cookie" => .ok .cookie
  | _ => .problem .unknownPlace

/-- Null, or what a check accepts. -/
def optional (check : Value → Checked α) : Value → Checked (Option α)
  | .null => .ok none
  | v => some <$> check v

/-- A list of what a check accepts. -/
def list (check : Value → Checked α) : Value → Checked (List α)
  | .list items => Checked.allFrom check 0 items
  | _ => .problem .notList

/-- A mapping with texts as keys and values that a check accepts. -/
def mapOf (check : Value → Checked α) : Value → Checked (List (String × α))
  | .map ms => Checked.all (fun (k, v) =>
      Prod.mk <$> (text (.scalar k)).inField k.text <*> (check v).inField k.text) ms
  | _ => .problem .notMapping

/-- A mapping whose keys are texts, with any values. -/
def textMap (v : Value) : Checked Members :=
  (fun ms => ms.map fun (k, v) => (Scalar.str k, v)) <$> mapOf any v

/-- A record given by its fields. -/
def record (type : RecordType) (check : Members → Checked α) : Value → Checked α
  | .map ms => check ms
  | _ => .problem (.notARecord type)

/-- A field that has to be there. -/
def required (fields : Members) (key : String) (check : Value → Checked α) : Checked α :=
  match fields.get? key with
  | some v => (check v).inField key
  | none => Checked.problem .missing |>.inField key

/-- A field that may be left out. -/
def withDefault (fields : Members) (key : String) (default : α) (check : Value → Checked α) :
    Checked α :=
  match fields.get? key with
  | some v => (check v).inField key
  | none => .ok default

/-- The parameter that fields describe. -/
def parameter (fields : Members) : Checked Parameter :=
  Parameter.mk <$>
    required fields "name" text <*>
    required fields "location" place <*>
    required fields "required" truth <*>
    required fields "param_schema" mapping <*>
    withDefault fields "example" .null any <*>
    withDefault fields "ref_name" none (optional text) <*>
    withDefault fields "description" "" text

/-- The body that fields describe. -/
def body (fields : Members) : Checked Body :=
  Body.mk <$>
    required fields "media_type" text <*>
    required fields "body_schema" mapping <*>
    withDefault fields "streaming" false truth <*>
    withDefault fields "example" .null any <*>
    withDefault fields "ref_name" none (optional text)

/-- The endpoint that fields describe. -/
def endpoint (fields : Members) : Checked Endpoint :=
  Endpoint.mk <$>
    required fields "operation_id" text <*>
    required fields "method_name" text <*>
    required fields "title" text <*>
    required fields "method" text <*>
    required fields "path" text <*>
    required fields "params" (list (record .parameter parameter)) <*>
    withDefault fields "request_body" none (optional (record .body body)) <*>
    required fields "response_bodies" (mapOf (optional (record .body body))) <*>
    withDefault fields "streaming" false truth <*>
    withDefault fields "tags" [] (list text) <*>
    withDefault fields "example_params" [] (list textMap)

/-- The failure that fields describe. -/
def failure (fields : Members) : Checked Failure :=
  Failure.mk <$>
    required fields "path" text <*>
    required fields "method" text <*>
    required fields "operation_id" (optional text) <*>
    required fields "kind" text <*>
    required fields "error" text

end Check

/-- Fields of a finished record cannot be set. -/
def frozenField (type : RecordType) (field : String) : Fault :=
  .invalid ⟨type, [⟨[field], .frozen⟩]⟩

end EndpointAtlas
