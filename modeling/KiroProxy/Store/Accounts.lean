import Mathlib.Data.List.Sort
import Mathlib.Order.Basic
import KiroProxy.Lib.Files
import KiroProxy.Lib.Text
import KiroProxy.Pool.Account

/-! The account store: its mutations, and the file operations of a save. A file holds a JSON
document, compressed or not, or a torn part of one; compression and JSON lose nothing. Floating
point numbers are rationals. -/
namespace KiroProxy.Store

open Files
open Pool (AuthMethod SubscriptionKind)

structure Credentials where
  accessToken : String
  refreshToken : Option String := none
  clientId : Option String := none
  clientSecret : Option String := none
  region : String
  expiresAt : Int
  authMethod : AuthMethod
  deriving DecidableEq, Repr

structure Usage where
  current : Rat
  limit : Rat
  overageCap : Option Rat := none
  percentUsed : Rat
  nextResetDate : Option String := none
  updatedAt : Int
  deriving DecidableEq, Repr

structure Subscription where
  kind : SubscriptionKind
  title : Option String := none
  rawType : Option String := none
  expiresAt : Option Int := none
  daysRemaining : Option Int := none
  deriving DecidableEq, Repr

structure Account where
  id : String
  email : String
  label : Option String := none
  enabled : Bool := true
  machineId : String
  profileArn : Option String := none
  upstreamUserId : Option String := none
  credentials : Credentials
  usage : Option Usage := none
  subscription : Option Subscription := none
  tags : List String := []
  createdAt : Int
  creditExhausted : Bool := false
  deriving DecidableEq, Repr

structure AccountDelta where
  id : String
  account : Option Account
  deriving DecidableEq, Repr

/-! ### Files -/

inductive Document where
  | accounts (list : List Account)
  | compressed (list : List Account)
  | delta (delta : AccountDelta)
  deriving DecidableEq

inductive Path where
  | beside (name : String)
  | delta (name : String)
  deriving DecidableEq

abbrev Disk := FileSystem Path Document

def Path.deltaName : Path → Option String
  | .beside _ => none
  | .delta name => some name

/-- `read_dir` of the delta directory; a missing directory is an empty one. -/
def deltaNames (disk : Disk) : List String := disk.entries.filterMap fun entry => entry.1.deltaName

def encodeAccounts (accounts : List Account) (threshold : Nat) : Document :=
  if threshold = 0 ∨ accounts.length ≤ threshold then .accounts accounts else .compressed accounts

def decodeAccounts : Content Document → Option (List Account)
  | .whole (.accounts list) | .whole (.compressed list) => some list
  | _ => none

def decodeDelta : Content Document → Option AccountDelta
  | .whole (.delta delta) => some delta
  | _ => none

def deltaFileName (id : String) : String :=
  String.ofList (id.toList.map fun c => if c.isAlphanum ∨ c = '-' ∨ c = '_' then c else '_') ++ ".json"

/-! ### The store -/

structure AccountStore where
  accounts : List Account := []
  compressionThreshold : Nat := 100
  incrementalWrite : Bool := true
  dirty : Table String (Option Account) := ∅
  deriving DecidableEq

def applyDelta (accounts : List Account) (delta : AccountDelta) : List Account :=
  accounts.filter (fun account => account.id ≠ delta.id) ++ delta.account.toList

def readDelta (disk : Disk) (name : String) : Except String AccountDelta :=
  match (disk.get? (.delta name)).bind decodeDelta with
  | some delta => .ok delta
  | none => .error ("parse " ++ name)

def applyDeltas (disk : Disk) (accounts : List Account) : Except String (List Account) := do
  let deltas ← ((deltaNames disk).insertionSort (· ≤ ·)).mapM (readDelta disk)
  return deltas.foldl applyDelta accounts

variable (file : String)

def load (disk : Disk) : Except String AccountStore :=
  match disk.get? (.beside file) with
  | none => .ok {}
  | some content =>
    match decodeAccounts content with
    | none => .error ("parse " ++ file)
    | some accounts => do
      let accounts ← applyDeltas disk accounts
      return { accounts := accounts }

namespace AccountStore

variable (store : AccountStore)

def named (idOrEmail : String) (account : Account) : Bool := account.id = idOrEmail ∨ account.email = idOrEmail

def find (idOrEmail : String) : Option Account := store.accounts.find? (named idOrEmail)

def touch (id : String) (account : Option Account) : AccountStore :=
  { store with dirty := store.dirty.insert id account }

def sameUser (account : Account) : Option Account :=
  match (account.upstreamUserId.map Text.trim).filter (· ≠ "") with
  | none => none
  | some userId => store.accounts.find? fun existing => existing.upstreamUserId.map Text.trim = some userId

def insert (account : Account) : Except String AccountStore :=
  if store.accounts.any (·.id = account.id) then .error ("account " ++ account.id ++ " already exists")
  else if store.accounts.any (·.email = account.email) then
    .error ("account email " ++ account.email ++ " already exists")
  else match store.sameUser account with
  | some existing => .error ("Kiro identity is already registered as " ++ existing.email)
  | none => .ok ({ store with accounts := store.accounts ++ [account] }.touch account.id (some account))

def remove (idOrEmail : String) : AccountStore × Option Account :=
  match store.find idOrEmail with
  | none => (store, none)
  | some account =>
    ({ store with accounts := store.accounts.eraseP (named idOrEmail) }.touch account.id none, some account)

def updateFirst (hit : Account → Bool) (change : Account → Account) : List Account → List Account
  | [] => []
  | account :: rest => if hit account then change account :: rest else account :: updateFirst hit change rest

def update (idOrEmail : String) (mutate : Account → Account) : AccountStore × Bool :=
  match store.find idOrEmail with
  | none => (store, false)
  | some account =>
    ({ store with accounts := updateFirst (named idOrEmail) mutate store.accounts }.touch (mutate account).id
      (some (mutate account)), true)

def replaceIfChanged (account : Account) : AccountStore × Bool :=
  match store.accounts.find? (·.id = account.id) with
  | none => (store, false)
  | some stored =>
    if stored = account then (store, false)
    else ({ store with accounts := updateFirst (·.id = account.id) (fun _ => account) store.accounts }.touch account.id
      (some account), true)

/-! ### Saving -/

/-- What a save meets of its surroundings: the unique part of the temporary names, the order
in which the delta directory is listed, and which plain files mention the marker of a
compressed one. -/
structure Surroundings where
  unique : String → String
  listing : List String → List String
  exact : ∀ names, (listing names).Perm names
  mentions : List Account → Bool

variable (outside : Surroundings)

def tempName (name : String) : String := "." ++ name ++ "." ++ outside.unique name ++ ".tmp"

def baseWrite : AtomicWrite Path Document where
  temporary := .beside (tempName outside file)
  target := .beside file
  doc := encodeAccounts store.accounts store.compressionThreshold

def deltaWrite (delta : AccountDelta) : AtomicWrite Path Document where
  temporary := .delta (tempName outside (deltaFileName delta.id))
  target := .delta (deltaFileName delta.id)
  doc := .delta delta

def deltas : List AccountDelta :=
  (store.dirty.entries.map fun (id, account) => ⟨id, account⟩).insertionSort (·.id ≤ ·.id)

def looksCompressed : Content Document → Bool
  | .whole (.compressed _) => true
  | .whole (.accounts list) => outside.mentions list
  | _ => false

def upToDate (disk : Disk) : Bool :=
  store.incrementalWrite && (disk.get? (.beside file)).isSome && store.dirty.size = 0

def savesDeltas (disk : Disk) : Bool :=
  store.incrementalWrite && store.compressionThreshold < store.accounts.length &&
    (disk.get? (.beside file)).any (looksCompressed outside) && store.dirty.size ≠ 0 &&
    store.dirty.size < max store.compressionThreshold 1

def saveOps (disk : Disk) : List (FileOp Path Document) :=
  if store.upToDate file disk then []
  else if store.savesDeltas file outside disk then store.deltas.flatMap fun delta => (deltaWrite outside delta).ops
  else (store.baseWrite file outside).ops ++ (outside.listing (deltaNames disk)).map fun name => .remove (.delta name)

/-- A save either comes to its end, or fails after some of its file operations; then it
removes the temporary file and keeps the pending changes. -/
def save (disk : Disk) (fault : Option Nat) : Disk × AccountStore × Bool :=
  let ops := store.saveOps file outside disk
  match fault with
  | none => (perform disk ops, { store with dirty := ∅ }, true)
  | some n =>
    if ops = [] then (disk, store, true)
    else
      let done := ops.take n
      (perform disk (done ++ (created done).map .remove), store, false)

end AccountStore

/-! ### Runs -/

structure State where
  disk : Disk := ∅
  store : AccountStore := {}

inductive Action where
  | insert (account : Account)
  | remove (idOrEmail : String)
  | update (idOrEmail : String) (mutate : Account → Account)
  | replaceIfChanged (account : Account)
  | setCompressionThreshold (threshold : Nat)
  | setIncrementalWrite (enabled : Bool)
  | save (outside : AccountStore.Surroundings) (fault : Option Nat)
  | reload

def State.save (s : State) (outside : AccountStore.Surroundings) (fault : Option Nat) : State × Bool :=
  let (disk, store, ok) := s.store.save file outside s.disk fault
  (⟨disk, store⟩, ok)

def step (s : State) : Action → State
  | .insert account => { s with store := (s.store.insert account).toOption.getD s.store }
  | .remove idOrEmail => { s with store := (s.store.remove idOrEmail).1 }
  | .update idOrEmail mutate => { s with store := (s.store.update idOrEmail mutate).1 }
  | .replaceIfChanged account => { s with store := (s.store.replaceIfChanged account).1 }
  | .setCompressionThreshold threshold => { s with store := { s.store with compressionThreshold := threshold } }
  | .setIncrementalWrite enabled => { s with store := { s.store with incrementalWrite := enabled } }
  | .save outside fault => (s.save file outside fault).1
  | .reload => { s with store := (load file s.disk).toOption.getD s.store }

end KiroProxy.Store
