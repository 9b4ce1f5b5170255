/-
  The frontend and backend messages of the PostgreSQL protocol, version 3.0, as far as the
  proxy reads them.

  `FrontendMessage` and `BackendMessage` follow `PgWireFrontendMessage` and
  `PgWireBackendMessage`. A message keeps the fields that some function of the proxy reads;
  the payload of the messages that are only passed on (Bind parameters, COPY chunks, notices)
  is left out. The kinds that a session never sees after startup share the constructor `other`.
-/
import Mathlib.Algebra.Ring.Int.Defs
import Mathlib.Algebra.Ring.Nat
import Mathlib.Data.List.AList

namespace Pgferry

/-- A map with string keys (`HashMap<String, _>`, `BTreeMap<String, _>`). The entries stand in
    iteration order and the keys are unique. -/
abbrev StringMap (β : Type) := AList (fun _ : String => β)

/-- Server parameters, startup parameters and GUC overrides. -/
abbrev Params := StringMap String

/-- The status byte of a `ReadyForQuery`. -/
inductive TransactionStatus where
  | idle
  | transaction
  | error
  deriving DecidableEq, Repr

structure ErrorInfo where
  severity : String
  code : String
  message : String
  deriving DecidableEq, Repr

/-- A character of a text that is formatted with `{:?}`. -/
def escapeDebug (ch : Char) : String :=
  match ch with
  | '"' => "\\\""
  | '\\' => "\\\\"
  | '\n' => "\\n"
  | '\r' => "\\r"
  | '\t' => "\\t"
  | '\x00' => "\\0"
  | _ =>
      -- the characters beyond ASCII are taken to be printable
      if ch.toNat < 32 ∨ ch.toNat = 127 then
        "\\u\x7b" ++ String.ofList (Nat.toDigits 16 ch.toNat) ++ "\x7d"
      else String.singleton ch

/-- `{:?}` of a text. -/
def debugText (text : String) : String := "\"" ++ String.join (text.toList.map escapeDebug) ++ "\""

/-- What a `Close` or a `Describe` names (`S` or `P` on the wire). -/
inductive Target where
  | statement
  | portal
  deriving DecidableEq, Repr

inductive FrontendMessage where
  | query (query : String)
  | parse (name : Option String) (query : String) (typeOids : List Nat)
  | bind (portalName statementName : Option String)
  | describe (target : Target) (name : Option String)
  | execute (name : Option String)
  | close (target : Target) (name : Option String)
  | flush
  | sync
  | terminate
  | copyData
  | copyDone
  | copyFail (message : String)
  | other
  deriving DecidableEq, Repr

structure FieldDescription where
  name : String
  typeId : Nat
  formatCode : Int
  deriving DecidableEq, Repr

/-- A `DataRow`: `field_count` and the length-prefixed fields as they stand on the wire. -/
structure DataRow where
  data : List UInt8
  fieldCount : Int
  deriving DecidableEq, Repr

inductive BackendMessage where
  | readyForQuery (status : TransactionStatus)
  | errorResponse (info : ErrorInfo)
  | parameterStatus (name value : String)
  | parseComplete
  | bindComplete
  | closeComplete
  | portalSuspended
  | commandComplete (tag : String)
  | emptyQueryResponse
  | rowDescription (fields : List FieldDescription)
  | dataRow (row : DataRow)
  | noData
  | parameterDescription
  | noticeResponse
  | notificationResponse
  | copyInResponse
  | copyOutResponse
  | copyBothResponse
  | copyData
  | copyDone
  | other
  deriving DecidableEq, Repr

namespace FrontendMessage

/-- The number of `ReadyForQuery` messages that the server owes for `m`: one for a `Query` and
    one for a `Sync`. -/
def cycles : FrontendMessage → Nat
  | query _ => 1
  | sync => 1
  | _ => 0

/-- COPY sub-protocol messages belong to the cycle of the COPY command. -/
def isCopy : FrontendMessage → Bool
  | copyData => true
  | copyDone => true
  | copyFail _ => true
  | _ => false

/-- `triggers_response`: messages after which the server may answer without further input. -/
def triggersResponse : FrontendMessage → Bool
  | query _ => true
  | sync => true
  | flush => true
  | terminate => true
  | copyData => true
  | copyDone => true
  | copyFail _ => true
  | _ => false

/-- The messages that raise `awaiting_response` in the pump. -/
def startsResponse : FrontendMessage → Bool
  | query _ => true
  | sync => true
  | flush => true
  | _ => false

theorem triggersResponse_of_cycles {m : FrontendMessage} (h : m.cycles ≠ 0) :
    m.triggersResponse = true := by
  cases m <;> simp_all [cycles, triggersResponse]

theorem triggersResponse_of_isCopy {m : FrontendMessage} (h : m.isCopy = true) :
    m.triggersResponse = true := by
  cases m <;> simp_all [isCopy, triggersResponse]

theorem startsResponse_of_cycles {m : FrontendMessage} (h : m.cycles ≠ 0) :
    m.startsResponse = true := by
  cases m <;> simp_all [cycles, startsResponse]

theorem cycles_of_isCopy {m : FrontendMessage} (h : m.isCopy = true) : m.cycles = 0 := by
  cases m <;> simp_all [isCopy, cycles]

theorem cycles_le_one (m : FrontendMessage) : m.cycles ≤ 1 := by
  cases m <;> simp [cycles]

end FrontendMessage

namespace BackendMessage

/-- One for a `ReadyForQuery`, zero for every other message. -/
def ready : BackendMessage → Nat
  | readyForQuery _ => 1
  | _ => 0

def isError : BackendMessage → Bool
  | errorResponse _ => true
  | _ => false

/-- The messages of the extended protocol and of COPY. A `Query` that is no COPY command is answered
    without them. -/
def isForeign : BackendMessage → Bool
  | parseComplete | bindComplete | closeComplete | portalSuspended | noData
  | parameterDescription | copyInResponse | copyOutResponse | copyBothResponse | copyData
  | copyDone | other => true
  | _ => false

/-- The text with which a message fails an exchange. -/
def failure : BackendMessage → String
  | errorResponse info => info.message
  | _ => "unexpected message"

/-- The messages that tell the client that one of its messages was carried out. -/
def isCompletion : BackendMessage → Bool
  | parseComplete => true
  | bindComplete => true
  | closeComplete => true
  | portalSuspended => true
  | commandComplete _ => true
  | emptyQueryResponse => true
  | _ => false

theorem ready_le_one (m : BackendMessage) : m.ready ≤ 1 := by
  cases m <;> simp [ready]

end BackendMessage

/-- The number of `ReadyForQuery` messages in a list. -/
def readies (ms : List BackendMessage) : Nat := (ms.map BackendMessage.ready).sum

@[simp] theorem readies_nil : readies [] = 0 := rfl

@[simp] theorem readies_cons (m : BackendMessage) (ms : List BackendMessage) :
    readies (m :: ms) = m.ready + readies ms := by simp [readies]

@[simp] theorem readies_append (ms ns : List BackendMessage) :
    readies (ms ++ ns) = readies ms + readies ns := by simp [readies]

theorem readies_eq_zero {ms : List BackendMessage} (h : ∀ m ∈ ms, m.ready = 0) :
    readies ms = 0 := by
  induction ms with
  | nil => rfl
  | cons m ms ih =>
      rw [readies_cons, h m List.mem_cons_self, ih fun x hx => h x (List.mem_cons_of_mem _ hx)]

theorem readies_dropLast_le (ms : List BackendMessage) : readies ms.dropLast ≤ readies ms := by
  cases ms with
  | nil => simp
  | cons m ms =>
      conv_rhs => rw [← List.dropLast_append_getLast (List.cons_ne_nil m ms)]
      rw [readies_append]
      omega

end Pgferry
