import Mathlib.Data.List.Sort
import WmAutopilot.Async.Prog
import WmAutopilot.Js.Keyed
import WmAutopilot.Js.Throw

/-!
# The registry of app domains

* `normalizeAppHostname`, `isValidAppHostname`   the names of hosts;
* `AppDomainRecord`, `StoredRecord`   a record, and a record of the file, of which parts may be left
                                      out;
* `Memory`, `setRecord`, `loaded`     the two maps, and what a file puts into them;
* `ensureLoaded`, `registerDomain`, `updateDomain`, `removeDomain`, `removeByAppId`   the methods of
  `AppDomainRegistry`.  A method changes the maps and queues the write of a snapshot in one section, then
  waits until that write is settled.
-/

set_option autoImplicit false

namespace WmAutopilot
namespace Apps
namespace Domains
open Js Async

/-! ## names of hosts -/

/-- `/^[a-z0-9-]$/` -/
def isLabelChar (c : Char) : Bool := ('a' ≤ c && c ≤ 'z') || ('0' ≤ c && c ≤ '9') || c = '-'

def isValidLabel (label : List Char) : Bool :=
  1 ≤ label.length && label.length ≤ 63 && label.head? ≠ some '-' && label.getLast? ≠ some '-' &&
    label.all isLabelChar

def isValidAppHostname (hostname : List Char) : Bool :=
  1 ≤ hostname.length && hostname.length ≤ 253 && !hostname.contains '*' && !hostname.contains '_' &&
    !decide (['.', '.'] <:+: hostname) && hostname ≠ "localhost".toList &&
    !hostname.all (fun c => ('0' ≤ c && c ≤ '9') || c = '.') &&
    2 ≤ (hostname.splitOn '.').length && (hostname.splitOn '.').all isValidLabel

/-- What is used of the platform. -/
structure Host where
  /-- `text.toLowerCase()` -/
  lower : List Char → List Char
  /-- digits, small letters, hyphens and dots are in lower case. -/
  lower_plain : ∀ text : List Char, (∀ c ∈ text, isLabelChar c = true ∨ c = '.') → lower text = text
  /-- `a.localeCompare(b) <= 0` -/
  localeLe : String → String → Bool

/-- `text.replace(/^https?:\\/\\//, "")` -/
def withoutProtocol : List Char → List Char
  | 'h' :: 't' :: 't' :: 'p' :: ':' :: '/' :: '/' :: text => text
  | 'h' :: 't' :: 't' :: 'p' :: 's' :: ':' :: '/' :: '/' :: text => text
  | text => text

/-- `text.split(separator)[0]` -/
def before (separator : Char) (text : List Char) : List Char := text.takeWhile (· ≠ separator)

def withoutPort (text : List Char) : List Char :=
  if text.head? = some '[' then text else before ':' text

/-- `text.replace(/\\.$/, "")` -/
def withoutDot (text : List Char) : List Char :=
  if text.getLast? = some '.' then text.dropLast else text

section
variable (host : Host)

def normalizeAppHostname (input : String) : Option String :=
  let trimmed := host.lower (trim input).toList
  let hostname := withoutDot (withoutPort (before '/' (withoutProtocol trimmed)))
  if trimmed ≠ [] ∧ isValidAppHostname hostname = true then some (String.ofList hostname) else none

end

/-! ## records -/

inductive AppDomainStatus where
  | pending_dns
  | active
  | disabled
  | error
  deriving DecidableEq, Repr

structure AppDomainRecord where
  hostname : String
  appId : String
  status : AppDomainStatus
  createdAt : String
  updatedAt : String
  lastVerifiedAt : Option String
  error : Option String
  deriving DecidableEq, Repr

/-- a record of the file. -/
structure StoredRecord where
  hostname : Option String := none
  appId : Option String := none
  status : Option AppDomainStatus := none
  createdAt : Option String := none
  updatedAt : Option String := none
  lastVerifiedAt : Option String := none
  error : Option String := none
  deriving DecidableEq, Repr

/-- a record as it is written. -/
def AppDomainRecord.stored (record : AppDomainRecord) : StoredRecord :=
  ⟨record.hostname, record.appId, record.status, record.createdAt, record.updatedAt,
    record.lastVerifiedAt, record.error⟩

/-- the two maps. -/
structure Memory where
  byHostname : List AppDomainRecord := []
  byAppId : String → List AppDomainRecord := fun _ => []

namespace Memory

def find (m : Memory) (hostname : String) : Option AppDomainRecord :=
  m.byHostname.find? fun record => record.hostname = hostname

/-- a hostname leaves the domains of an app. -/
def forget (m : Memory) (appId hostname : String) : String → List AppDomainRecord :=
  Function.update m.byAppId appId ((m.byAppId appId).filter fun record =>
    record.hostname ≠ hostname)

/-- the domains of apps when the hostname of a record has left another app. -/
def displaced (m : Memory) (record : AppDomainRecord) : String → List AppDomainRecord :=
  match m.find record.hostname with
  | some previous =>
    if previous.appId ≠ record.appId then m.forget previous.appId record.hostname else m.byAppId
  | none => m.byAppId

def setRecord (m : Memory) (record : AppDomainRecord) : Memory :=
  let byAppId := m.displaced record
  { byHostname := put (·.hostname) m.byHostname record
    byAppId := Function.update byAppId record.appId
      (put (·.hostname) (byAppId record.appId) record) }

/-- what `removeDomain` does with a record. -/
def remove (m : Memory) (existing : AppDomainRecord) : Memory where
  byHostname := m.byHostname.filter fun record => record.hostname ≠ existing.hostname
  byAppId := m.forget existing.appId existing.hostname

/-- what `removeByAppId` does. -/
def removeApp (m : Memory) (appId : String) : Memory where
  byHostname := m.byHostname.filter fun record =>
    record.hostname ∉ (m.byAppId appId).map (·.hostname)
  byAppId := Function.update m.byAppId appId []

end Memory

/-- the file. -/
inductive FileContent where
  | absent
  /-- something that is not a regular file. -/
  | other
  | records (domains : List StoredRecord)
  deriving DecidableEq

section
variable (host : Host)

/-- the record that is read, at a time; what has no valid hostname or no app is skipped. -/
def readRecord (now : String) (record : StoredRecord) : Option AppDomainRecord := do
  let hostname ← record.hostname.bind (normalizeAppHostname host)
  let appId ← record.appId.filter (· ≠ "")
  some {
    hostname := hostname
    appId := appId
    status := record.status.getD .pending_dns
    createdAt := record.createdAt.getD now
    updatedAt := record.updatedAt.getD now
    lastVerifiedAt := record.lastVerifiedAt
    error := record.error }

/-- the maps after a load. -/
def loaded (now : String) (domains : List StoredRecord) : Memory :=
  (domains.filterMap (readRecord host now)).foldl Memory.setRecord {}

/-- the payload of a write. -/
def snapshot (m : Memory) : List AppDomainRecord :=
  m.byHostname.insertionSort fun a b => host.localeLe a.hostname b.hostname = true

end

/-! ## methods -/

inductive Failure where
  /-- an error with the code `ENOENT`. -/
  | enoent
  | other (message : String)
  deriving DecidableEq, Repr

/-- what may be given of a record; an error may be set to `null`. -/
structure DomainInput where
  status : Option AppDomainStatus := none
  error : Option (Option String) := none
  verified : Bool := false

/-- the record of a registration. -/
def registered (m : Memory) (hostname appId : String) (input : DomainInput) (now : String) :
    Except Failure AppDomainRecord := do
  let existing := m.find hostname
  throwIf (∃ record ∈ existing, record.appId ≠ appId) (.other ("Domain " ++ hostname ++
    " is already registered to app " ++ (existing.map (·.appId)).getD ""))
  .ok {
    hostname := hostname
    appId := appId
    status := input.status.getD ((existing.map (·.status)).getD .pending_dns)
    createdAt := (existing.map (·.createdAt)).getD now
    updatedAt := now
    lastVerifiedAt := existing.bind (·.lastVerifiedAt)
    error := input.error.getD (existing.bind (·.error)) }

/-- the record of an update. -/
def updated (m : Memory) (hostname : String) (input : DomainInput) (now : String) :
    Except Failure AppDomainRecord := do
  let existing ← orThrow (.other ("Domain " ++ hostname ++ " is not registered")) (m.find hostname)
  .ok { existing with
    status := input.status.getD existing.status
    error := input.error.getD existing.error
    lastVerifiedAt := if input.verified then some now else existing.lastVerifiedAt
    updatedAt := now }

inductive Op where
  /-- `this.loaded` -/
  | isLoaded
  /-- `stat` and `readFile`; nothing if it is not a regular file. -/
  | read
  /-- the maps are filled, and `this.loaded = true`. -/
  | fill (domains : List StoredRecord)
  /-- the maps are cleared and their write is queued. -/
  | clear
  /-- the write of the maps is queued. -/
  | persist
  /-- `await this.writeLock`, when this write is settled. -/
  | settled (write : ℕ)
  /-- `this.loaded = true` -/
  | setLoaded
  | look
  | register (hostname appId : String) (input : DomainInput)
  | update (hostname : String) (input : DomainInput)
  | remove (hostname : String)
  /-- the removal of the domains of an app, with their number. -/
  | removeApp (appId : String)
  /-- the file system settles the first write of the queue. -/
  | write

def Op.Ans : Op → Type
  | .isLoaded => Bool
  | .read => Except Failure (Option (List StoredRecord))
  | .clear | .persist => ℕ
  | .settled _ | .write => Except Failure Unit
  | .look => Memory
  | .register .. | .update .. => Except Failure (AppDomainRecord × ℕ)
  | .remove _ => Option ℕ
  | .removeApp _ => Option (ℕ × ℕ)
  | _ => Unit

abbrev api : Api where
  Op := Op
  Ans := Op.Ans
  yields _ := true

abbrev Registering (α : Type) := Exc api Failure α

/-- what a computation throws. -/
def raise {α : Type} : Except Failure α → Registering α
  | .ok a => pure a
  | .error e => throw e

/-- waits for a write. -/
def settle (write : ℕ) : Registering Unit := Exc.tryOp (A := api) (Op.settled write) rfl

/-- the `try` of `ensureLoaded`. -/
def load : Registering Unit := do
  let domains : Option (List StoredRecord) ← Exc.tryOp (A := api) Op.read rfl
  match domains with
  | none =>
    let write : ℕ ← Exc.op (A := api) Op.persist
    settle write
    Exc.op (A := api) Op.setLoaded
  | some domains => Exc.op (A := api) (Op.fill domains)

/-- the file is created. -/
def create : Registering Unit := do
  let write : ℕ ← Exc.op (A := api) Op.clear
  settle write
  Exc.op (A := api) Op.setLoaded

def ensureLoaded : Registering Unit := do
  let isLoaded : Bool ← Exc.op (A := api) Op.isLoaded
  if isLoaded then pure ()
  else tryCatch load fun e => if e = .enoent then create else throw e

section
variable (host : Host)

/-- `normalizeAppHostname(input)`, or an error. -/
def readHostname (input : String) : Except Failure String :=
  orThrow (.other "A valid hostname is required") (normalizeAppHostname host input)

/-- `getByHostname`, `listDomains` and `listByAppId` read the maps. -/
def read : Registering Memory := do
  ensureLoaded
  Exc.op (A := api) Op.look

def registerDomain (hostname appId : String) (input : DomainInput) :
    Registering AppDomainRecord := do
  ensureLoaded
  let hostname ← raise (readHostname host hostname)
  raise (throwIf (trim appId = "") (.other "App id is required"))
  let result : AppDomainRecord × ℕ ←
    Exc.tryOp (A := api) (Op.register hostname (trim appId) input) rfl
  settle result.2
  pure result.1

def updateDomain (hostname : String) (input : DomainInput) : Registering AppDomainRecord := do
  ensureLoaded
  let hostname ← raise (readHostname host hostname)
  let result : AppDomainRecord × ℕ ← Exc.tryOp (A := api) (Op.update hostname input) rfl
  settle result.2
  pure result.1

def removeDomain (hostname : String) : Registering Bool := do
  ensureLoaded
  match normalizeAppHostname host hostname with
  | none => pure false
  | some hostname =>
    let write : Option ℕ ← Exc.op (A := api) (Op.remove hostname)
    match write with
    | none => pure false
    | some write =>
      settle write
      pure true

def removeByAppId (appId : String) : Registering ℕ := do
  ensureLoaded
  let removed : Option (ℕ × ℕ) ← Exc.op (A := api) (Op.removeApp appId)
  match removed with
  | none => pure 0
  | some (write, count) =>
    settle write
    pure count

end

end Domains
end Apps
end WmAutopilot
