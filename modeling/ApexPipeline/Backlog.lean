import Mathlib

/-! The backlog of the agent: its tables, and `manage.go`, `enums.go`, `import.go` and `export.go` of `backlog`. A
call is one transaction; the junction callbacks are those that `handoff` injects. Nullable text columns hold the
empty text for NULL, as every query reads them. `now` is `datetime('now','localtime')`. -/
namespace ApexPipeline.Backlog

open Option

/-- A row of `backlog_items`, and the struct that is added, imported and exported. A position outside of 64 bits
stands for a REAL, which SQL makes of an integer that overflows. -/
structure BacklogItem where
  id : Int
  title : String
  severity : String
  timeframe : String
  scope : String
  type : String
  description : String
  related : String
  position : Int
  status : String
  resolution : String
  resolvedAt : String
  blockedReason : String
  createdAt : String
  updatedAt : String
  deriving DecidableEq, Repr

/-- A row of `active_branches`. -/
structure Branch where
  branch : String
  workspace : String
  gitBranch : String
  status : String
  summary : String
  createdAt : String
  updatedAt : String
  deriving DecidableEq, Repr

/-- A row of `branch_history`; the ids are stored as a JSON text. -/
structure History where
  branch : String
  workspace : String
  gitBranch : String
  status : String
  summary : String
  backlogIds : List Int
  startedAt : String
  finishedAt : String
  deriving DecidableEq, Repr

structure Database where
  items : List BacklogItem := []
  activeBranches : List Branch := []
  branchBacklogs : List (String × Int) := []
  branchHistory : List History := []
  deriving DecidableEq, Repr

inductive Failure where
  | invalidSeverity (text : String)
  | timeframeRequired
  | invalidTimeframe (text : String)
  | invalidType (text : String)
  | emptyScope
  | emptyScopeToken (text : String)
  | invalidScope (token : String)
  | invalidStatus (text : String)
  | invalidResolution (text : String)
  | constraint
  | full
  | notFound (id : Int)
  | notFoundOrResolved (id : Int)
  | notFixing (id : Int)
  | alreadyFixing (id : Int)
  | alreadyResolved (id : Int)
  | notOpen (id : Int) (status : String)
  | noFields
  | unknownField (field : String)
  | badPosition (text : String)
  | scan
  | store
  | malformed
  | notRegistered (branch : String)
  | invalidTransition (current notifyType : String)
  | fixingRemain (ids : List Int)
  deriving DecidableEq, Repr

/-! `enums.go` -/

def validate (valid : List String) (failure : String → Failure) (text : String) : Except Failure Unit :=
  if text ∈ valid then .ok () else .error (failure text)

def validateSeverity : String → Except Failure Unit := validate ["CRITICAL","MAJOR","MINOR"] .invalidSeverity

/-- The empty text is for the import of history items. -/
def validateTimeframe : String → Except Failure Unit := validate ["NOW","IN_VIEW","DEFERRED",""] .invalidTimeframe

def validateType : String → Except Failure Unit :=
  validate ["BUG","DESIGN_DEBT","DOCS","INFRA","PERF","SECURITY","TEST"] .invalidType

def validateStatus : String → Except Failure Unit := validate ["OPEN","FIXING","RESOLVED"] .invalidStatus

def validateResolution : String → Except Failure Unit :=
  validate ["FIXED","DOCUMENTED","WONTFIX","DUPLICATE","SUPERSEDED"] .invalidResolution

def validScopes : List String := ["CORE","SHARED","GATEWAY","AUTH_SVC","CHAT_SVC","INFRA","CI","DOCS","TOOLS"]

/-- `unicode.IsSpace`. -/
def isSpace (c : Char) : Bool :=
  let code := c.toNat
  (9 ≤ code ∧ code ≤ 13) ∨ code = 32 ∨ code = 0x85 ∨ code = 0xA0 ∨ code = 0x1680 ∨ (0x2000 ≤ code ∧ code ≤ 0x200A) ∨
    code = 0x2028 ∨ code = 0x2029 ∨ code = 0x202F ∨ code = 0x205F ∨ code = 0x3000

/-- `strings.TrimSpace`. -/
def trimSpace (text : List Char) : List Char := ((text.dropWhile isSpace).reverse.dropWhile isSpace).reverse

def validateScopeToken (text : String) (token : List Char) : Except Failure Unit :=
  if token = [] then .error (.emptyScopeToken text)
  else if token ∈ validScopes.map String.toList then .ok ()
  else .error (.invalidScope (String.ofList token))

def validateScope (text : String) : Except Failure Unit :=
  if text = "" then .error .emptyScope
  else (text.toList.splitOn ',').forM fun part => validateScopeToken text (trimSpace part)

/-! `manage.go` -/

/-- A REAL cannot be scanned into an `int`. -/
def BacklogItem.Readable (item : BacklogItem) : Prop := -2^63 ≤ item.position ∧ item.position < 2^63

instance (item : BacklogItem) : Decidable item.Readable := inferInstanceAs (Decidable (_ ∧ _))

/-- 64-bit arithmetic of the program; SQL has computed the operand. -/
def int64 (value : Int) : Int := value.bmod (2^64)

namespace Database

def row (db : Database) (id : Int) : Option BacklogItem := db.items.find? fun item => item.id = id

def get (db : Database) (id : Int) : Except Failure (Option BacklogItem) :=
  match db.row id with
  | none => .ok none
  | some item => if item.Readable then .ok (some item) else .error .scan

def check (db : Database) (id : Int) : Option String := (db.row id).map BacklogItem.status

/-- `COALESCE(MAX(id), 0)`. -/
def maxId (db : Database) : Int := (db.items.map BacklogItem.id).max?.getD 0

def nextId (db : Database) : Int := int64 (db.maxId + 1)

/-- `COALESCE(MAX(position), 0)` among the items of a timeframe. -/
def maxPosition (db : Database) (timeframe : String) : Int :=
  ((db.items.filter fun item => item.timeframe = timeframe).map BacklogItem.position).max?.getD 0

/-- `UPDATE backlog_items SET .. WHERE id = ?`. -/
def update (db : Database) (id : Int) (change : BacklogItem → BacklogItem) : Database :=
  { db with items := db.items.map fun item => if item.id = id then change item else item }

/-- The id of a new row: the one of the item, or the next of `AUTOINCREMENT`. Rows are never deleted, so the largest
id ever used is in the table. -/
def rowId (db : Database) (id : Int) : Except Failure Int :=
  if id = 0 then
    if max 0 db.maxId = 2^63 - 1 then .error .full else .ok (max 0 db.maxId + 1)
  else if (db.row id).isSome then .error .constraint
  else .ok id

/-- The callback of `handoff` that `Release` uses. -/
def junctionCleaner (db : Database) (id : Int) : Database :=
  { db with branchBacklogs := db.branchBacklogs.filter fun link => link.2 ≠ id }

/-- The callback of `handoff` that `Fix` uses, an `INSERT OR IGNORE`. -/
def junctionCreator (db : Database) (branch : String) (id : Int) : Database :=
  if (branch,id) ∈ db.branchBacklogs then db else { db with branchBacklogs := db.branchBacklogs ++ [(branch,id)] }

end Database

def validateItem (item : BacklogItem) : Except Failure Unit := do
  validateSeverity item.severity
  if item.timeframe = "" then throw .timeframeRequired
  validateTimeframe item.timeframe
  validateType item.type
  validateScope item.scope

def addPosition (db : Database) (item : BacklogItem) : Except Failure Int :=
  if item.position ≠ 0 then .ok item.position
  else if db.maxPosition item.timeframe < 2^63 then .ok (int64 (db.maxPosition item.timeframe + 1))
  else .error .scan

/-- The row that `Add` inserts. The statement has no `blocked_reason`, and leaves the times to their defaults. -/
def newRow (now : String) (item : BacklogItem) (id position : Int) : BacklogItem :=
  { item with
    id := id
    position := position
    status := if item.status = "" then "OPEN" else item.status
    blockedReason := ""
    createdAt := now
    updatedAt := now }

def add (now : String) (db : Database) (item : BacklogItem) : Except Failure Database := do
  validateItem item
  let position ← addPosition db item
  let id ← db.rowId item.id
  return { db with items := db.items ++ [newRow now item id position] }

def overwrite (now : String) (item row : BacklogItem) : BacklogItem :=
  { row with
    title := item.title
    severity := item.severity
    timeframe := item.timeframe
    scope := item.scope
    type := item.type
    description := item.description
    related := item.related
    position := item.position
    updatedAt := now }

def updateFromImport (now : String) (db : Database) (item : BacklogItem) : Except Failure Database :=
  match db.get item.id with
  | .error failure => .error failure
  | .ok none => .error (.notFound item.id)
  | .ok (some existing) =>
    -- The database is newer: the import is stale.
    if item.updatedAt ≠ "" ∧ item.updatedAt < existing.updatedAt then .ok db
    else if existing.title = item.title ∧ existing.severity = item.severity ∧ existing.timeframe = item.timeframe ∧
        existing.scope = item.scope ∧ existing.type = item.type ∧ existing.description = item.description ∧
        existing.related = item.related ∧ existing.position = item.position then .ok db
    else .ok (db.update item.id (overwrite now item))

def resolve (now : String) (db : Database) (id : Int) (resolution : String) : Except Failure Database := do
  validateResolution resolution
  match db.check id with
  | none => throw (.notFoundOrResolved id)
  | some status =>
    if status = "RESOLVED" then throw (.notFoundOrResolved id)
    else return db.update id fun row =>
      { row with status := "RESOLVED", resolution := resolution, resolvedAt := now, updatedAt := now }

/-- `FIXING` is reached from `OPEN` only, and `OPEN` from `FIXING` only. -/
def setStatusWith (now : String) (db : Database) (id : Int) (status : String) : Except Failure Database := do
  validateStatus status
  let updated := db.update id fun row => { row with status := status, updatedAt := now }
  match db.check id with
  | none => throw (if status = "OPEN" then .notFixing id else .notFound id)
  | some current =>
    if status = "FIXING" then
      if current = "OPEN" then return updated
      else if current = "FIXING" then throw (.alreadyFixing id)
      else if current = "RESOLVED" then throw (.alreadyResolved id)
      else throw (.notOpen id current)
    else if status = "OPEN" then
      if current = "FIXING" then return updated else throw (.notFixing id)
    else return updated

def release (now : String) (db : Database) (id : Int) (reason branch : String) : Except Failure Database :=
  match db.get id with
  | .error failure => .error failure
  | .ok none => .error (.notFound id)
  | .ok (some item) =>
    if item.status ≠ "FIXING" then .error (.notFixing id)
    else .ok ((db.update id fun row => { row with
      status := "OPEN"
      description := row.description ++ ("\n[RELEASED] " ++ branch ++ ": " ++ reason)
      updatedAt := now }).junctionCleaner id)

def fix (now : String) (db : Database) (id : Int) (branch : String) : Except Failure Database :=
  match db.get id with
  | .error failure => .error failure
  | .ok none => .error (.notFound id)
  | .ok (some item) =>
    if item.status = "FIXING" then .ok db
    else if item.status ≠ "OPEN" then .error (.notOpen id item.status)
    else .ok ((db.update id fun row => { row with status := "FIXING", updatedAt := now }).junctionCreator branch id)

/-- The map of `Update`: its known keys, and a key that is not known. -/
structure Fields where
  title : Option String := none
  severity : Option String := none
  timeframe : Option String := none
  scope : Option String := none
  type : Option String := none
  description : Option String := none
  related : Option String := none
  position : Option String := none
  blocked : Option String := none
  unknown : Option String := none
  deriving DecidableEq, Repr

/-- `strconv.Atoi`. -/
def atoi (text : String) : Option Int :=
  let (negative,digits) := match text.toList with
    | '-' :: digits => (true,digits)
    | '+' :: digits => (false,digits)
    | digits => (false,digits)
  if digits ≠ [] ∧ digits.all Char.isDigit then
    let magnitude : Int := digits.foldl (fun value c => 10 * value + (c.toNat - 48)) 0
    let value := if negative then -magnitude else magnitude
    if -2^63 ≤ value ∧ value < 2^63 then some value else none
  else none

def parsePosition : Option String → Except Failure (Option Int)
  | none => .ok none
  | some text =>
    match atoi text with
    | some value => if value < 1 then .error (.badPosition text) else .ok (some value)
    | none => .error (.badPosition text)

def Fields.apply (fields : Fields) (position : Option Int) (now : String) (row : BacklogItem) : BacklogItem :=
  { row with
    title := fields.title.getD row.title
    severity := fields.severity.getD row.severity
    timeframe := fields.timeframe.getD row.timeframe
    scope := fields.scope.getD row.scope
    type := fields.type.getD row.type
    description := fields.description.getD row.description
    related := fields.related.getD row.related
    position := position.getD row.position
    blockedReason := fields.blocked.getD row.blockedReason
    updatedAt := now }

def Fields.validate (fields : Fields) : Except Failure Unit := do
  fields.severity.forM validateSeverity
  fields.timeframe.forM validateTimeframe
  fields.type.forM validateType
  fields.scope.forM validateScope

/-- The timeframe in which the position is given: the new one, or the one that the item has. -/
def targetTimeframe (db : Database) (id : Int) : Option String → Except Failure String
  | some timeframe => .ok timeframe
  | none =>
    match db.get id with
    | .error failure => .error failure
    | .ok none => .error (.notFound id)
    | .ok (some item) => .ok item.timeframe

/-- The items of the timeframe from the new position on move up. A REAL of this size has no successor. -/
def shift (db : Database) (id : Int) (timeframe : String) (position : Int) : Database :=
  { db with items := db.items.map fun row =>
      if row.timeframe = timeframe ∧ position ≤ row.position ∧ row.id ≠ id ∧ row.status ≠ "RESOLVED" then
        { row with position := if row.position < 2^63 then row.position + 1 else row.position }
      else row }

def update (now : String) (db : Database) (id : Int) (fields : Fields) : Except Failure Database := do
  if fields = {} then throw .noFields
  if db.check id = none then throw (.notFound id)
  fields.validate
  let position ← parsePosition fields.position
  fields.unknown.forM fun field => throw (.unknownField field)
  match position with
  | none => return db.update id (fields.apply none now)
  | some value =>
    let timeframe ← targetTimeframe db id fields.timeframe
    return (shift db id timeframe value).update id (fields.apply (some value) now)

def listFixingForBranch (db : Database) (ids : List Int) : List Int :=
  (db.items.filter fun item => item.id ∈ ids ∧ item.status = "FIXING").map BacklogItem.id

/-! `import.go` and `export.go` -/

def populateResolvedAt (item : BacklogItem) : BacklogItem :=
  if item.status = "RESOLVED" ∧ item.resolvedAt = "" then { item with resolvedAt := "imported" } else item

def importItem (now : String) (db : Database) (item : BacklogItem) : Except Failure Database :=
  match db.check item.id with
  | none => add now db (populateResolvedAt item)
  | some _ => updateFromImport now db item

/-- The items are imported one after the other; what was imported before a failure stays, unless the caller
has put the import into a transaction. -/
def importItems (now : String) (db : Database) : List BacklogItem → Database × Except Failure Nat
  | [] => (db,.ok 0)
  | item :: rest =>
    match importItem now db item with
    | .ok next => ((importItems now next rest).1,(importItems now next rest).2.map (· + 1))
    | .error failure => (db,.error failure)

def statusRank (status : String) : Nat :=
  if status = "OPEN" ∨ status = "FIXING" then 1 else if status = "RESOLVED" then 2 else 3

def timeframeRank (timeframe : String) : Nat :=
  if timeframe = "NOW" then 1 else if timeframe = "IN_VIEW" then 2 else if timeframe = "DEFERRED" then 3 else 4

/-- The `ORDER BY` of `ListAll`. -/
def Before (first second : BacklogItem) : Prop :=
  let key (item : BacklogItem) : Nat × Nat × Int :=
    if item.status = "RESOLVED" then (statusRank item.status,999,0)
    else (statusRank item.status,timeframeRank item.timeframe,item.position)
  let time (item : BacklogItem) : String := if item.status = "RESOLVED" then item.resolvedAt else ""
  (key first).1 < (key second).1 ∨ (key first).1 = (key second).1 ∧
    ((key first).2.1 < (key second).2.1 ∨ (key first).2.1 = (key second).2.1 ∧
      ((key first).2.2 < (key second).2.2 ∨ (key first).2.2 = (key second).2.2 ∧ ¬ time first < time second))

instance : DecidableRel Before := fun _ _ => inferInstanceAs (Decidable (_ ∨ _))

def listAll (db : Database) : List BacklogItem := db.items.insertionSort Before

structure BacklogJSON where
  nextId : Int
  items : List BacklogItem
  deriving DecidableEq, Repr

def exportJSON (db : Database) : Except Failure BacklogJSON :=
  if ∀ item ∈ db.items, item.Readable then .ok ⟨db.nextId,listAll db⟩ else .error .scan

/-- `RunInTx`: what a failed body has done is rolled back. -/
def runInTx (db : Database) (body : Database × Except Failure A) : Database × Except Failure A :=
  match body.2 with
  | .ok _ => body
  | .error _ => (db,body.2)

/-- Import and export in one transaction; `none` is an input that is no JSON document of this form. The result is
the document and the number of imported items. -/
def safeExportJSON (now : String) (db : Database) (input : Option (List BacklogItem)) :
    Database × Except Failure (BacklogJSON × Nat) :=
  runInTx db <|
    match input with
    | none => (db,.error .malformed)
    | some items =>
      let imported := importItems now db items
      (imported.1,do
        let count ← imported.2
        let out ← exportJSON imported.1
        return (out,count))

/-! What a successful call has done -/

theorem bind_ok {x : Except E A} {f : A → Except E B} {b : B} (done : x >>= f = .ok b) :
    ∃ a, x = .ok a ∧ f a = .ok b := by
  cases x with
  | error e => cases done
  | ok a => exact ⟨a,rfl,done⟩

variable {db next : Database} {id : Int} {item : BacklogItem} {items : List BacklogItem} {change : BacklogItem → BacklogItem}

namespace Database

theorem row_mem (found : db.row id = some item) : item ∈ db.items ∧ item.id = id :=
  ⟨List.mem_of_find?_eq_some found,by simpa using List.find?_some found⟩

theorem get_ok (found : db.get id = .ok (some item)) : db.row id = some item ∧ item.Readable := by
  unfold get at found
  split at found
  · cases found
  rename_i row present
  split at found <;> cases found
  exact ⟨present,by assumption⟩

theorem check_of_row (found : db.row id = some item) : db.check id = some item.status := by
  simp [check,found]

theorem exists_row (present : db.check id ≠ none) : ∃ item, db.row id = some item :=
  ne_none_iff_exists'.mp fun absent => present (by simp [check,absent])

theorem check_eq_none : db.check id = none ↔ ∀ item ∈ db.items, item.id ≠ id := by
  simp [check,row]

theorem row_of_mem (keys : (db.items.map BacklogItem.id).Nodup) (member : item ∈ db.items) :
    db.row item.id = some item := by
  cases found : db.row item.id with
  | none =>
    have missing := List.find?_eq_none.mp found item member
    simp at missing
  | some other =>
    obtain ⟨also,same⟩ := row_mem found
    rw [List.inj_on_of_nodup_map keys also member same]

section
variable (db : Database) (keeps : ∀ row, (change row).id = row.id)
include keeps

theorem row_update (x : Int) :
    (db.update id change).row x = if x = id then (db.row id).map change else db.row x := by
  have keyed : (fun item => decide ((if item.id = id then change item else item).id = x)) =
      fun item : BacklogItem => decide (item.id = x) := by
    funext item
    split <;> simp [keeps]
  simp only [row,update,List.find?_map,Function.comp_def,keyed]
  split
  · subst x
    cases found : db.items.find? fun item => decide (item.id = id) with
    | none => rfl
    | some item => simp [(row_mem (show db.row id = some item from found)).2]
  · rename_i other
    cases found : db.items.find? fun item => decide (item.id = x) with
    | none => rfl
    | some item => simp [(row_mem (show db.row x = some item from found)).2,other]

theorem ids_update :
    (db.update id change).items.map BacklogItem.id = db.items.map BacklogItem.id := by
  simp only [update,List.map_map]
  refine List.map_congr_left fun item _ => ?_
  simp only [Function.comp_apply]
  split
  · exact keeps item
  · rfl

end

theorem junctionCreator_items (db : Database) (branch : String) (id : Int) : (db.junctionCreator branch id).items = db.items := by
  unfold junctionCreator
  split <;> rfl

theorem maxId_spec (db : Database) (member : item ∈ db.items) : item.id ≤ db.maxId ∧ ∃ row ∈ db.items, row.id = db.maxId := by
  have present : item.id ∈ db.items.map BacklogItem.id := List.mem_map_of_mem member
  rw [maxId,List.max?_eq_some_max (List.ne_nil_of_mem present)]
  exact ⟨List.le_max_of_mem present,List.mem_map.mp (List.max_mem _)⟩

theorem le_maxPosition (db : Database) (member : item ∈ db.items) : item.position ≤ db.maxPosition item.timeframe := by
  have present : item.position ∈ (db.items.filter fun row => row.timeframe = item.timeframe).map BacklogItem.position :=
    List.mem_map_of_mem (List.mem_filter.mpr ⟨member,by simp⟩)
  rw [maxPosition,List.max?_eq_some_max (List.ne_nil_of_mem present)]
  exact List.le_max_of_mem present

theorem rowId_ok {fresh : Int} (done : db.rowId id = .ok fresh) :
    (∀ item ∈ db.items, item.id ≠ fresh) ∧ fresh ≠ 0 ∧ (id ≠ 0 → fresh = id) := by
  unfold rowId at done
  split at done
  · split at done <;> cases done
    rename_i zero _
    refine ⟨fun item member equal => ?_,by omega,fun nonzero => absurd zero nonzero⟩
    have bound := (db.maxId_spec member).1
    omega
  · split at done <;> cases done
    rename_i nonzero absent
    refine ⟨fun item member equal => absent ?_,nonzero,fun _ => rfl⟩
    exact List.find?_isSome.mpr ⟨item,member,by simpa using equal⟩

end Database

theorem add_ok (done : add now db item = .ok next) :
    ∃ id position, next = { db with items := db.items ++ [newRow now item id position] } ∧
      (∀ row ∈ db.items, row.id ≠ id) ∧ id ≠ 0 ∧ (item.id ≠ 0 → id = item.id) ∧ addPosition db item = .ok position ∧
      validateItem item = .ok () := by
  obtain ⟨⟨⟩,valid,done⟩ := bind_ok done
  obtain ⟨position,placed,done⟩ := bind_ok done
  obtain ⟨id,fresh,done⟩ := bind_ok done
  cases done
  obtain ⟨absent,nonzero,same⟩ := Database.rowId_ok fresh
  exact ⟨id,position,rfl,absent,nonzero,same,placed,valid⟩

theorem resolve_ok (done : resolve now db id resolution = .ok next) : db.check id ≠ none ∧ next = db.update id fun row =>
    { row with status := "RESOLVED", resolution := resolution, resolvedAt := now, updatedAt := now } := by
  obtain ⟨⟨⟩,_,done⟩ := bind_ok done
  split at done
  · cases done
  rename_i known
  split at done <;> cases done
  exact ⟨by simp [known],rfl⟩

theorem release_ok (done : release now db id reason branch = .ok next) :
    ∃ item, db.row id = some item ∧ item.status = "FIXING" ∧ next = (db.update id fun row => { row with
      status := "OPEN"
      description := row.description ++ ("\n[RELEASED] " ++ branch ++ ": " ++ reason)
      updatedAt := now }).junctionCleaner id := by
  unfold release at done
  split at done
  · cases done
  · cases done
  rename_i item found
  split at done <;> cases done
  rename_i fixing
  exact ⟨item,(Database.get_ok found).1,not_not.mp fixing,rfl⟩

theorem fix_ok (done : fix now db id branch = .ok next) :
    ∃ item, db.row id = some item ∧ (item.status = "FIXING" ∧ next = db ∨ item.status = "OPEN" ∧
      next = (db.update id fun row => { row with status := "FIXING", updatedAt := now }).junctionCreator branch id) := by
  unfold fix at done
  split at done
  · cases done
  · cases done
  rename_i item found
  refine ⟨item,(Database.get_ok found).1,?_⟩
  split at done
  · rename_i fixing
    cases done
    exact .inl ⟨fixing,rfl⟩
  · split at done <;> cases done
    rename_i isOpen
    exact .inr ⟨not_not.mp isOpen,rfl⟩

theorem update_ok (done : update now db id fields = .ok next) :
    ∃ position, parsePosition fields.position = .ok position ∧ db.check id ≠ none ∧
      (position = none ∧ next = db.update id (fields.apply none now) ∨ ∃ value timeframe, position = some value ∧
        targetTimeframe db id fields.timeframe = .ok timeframe ∧
        next = (shift db id timeframe value).update id (fields.apply (some value) now)) := by
  simp only [update] at done
  split at done
  · cases done
  split at done
  · cases done
  rename_i known
  obtain ⟨⟨⟩,_,done⟩ := bind_ok done
  obtain ⟨position,parsed,done⟩ := bind_ok done
  obtain ⟨⟨⟩,_,done⟩ := bind_ok done
  refine ⟨position,parsed,known,?_⟩
  split at done
  · cases done
    exact .inl ⟨rfl,rfl⟩
  · obtain ⟨timeframe,target,done⟩ := bind_ok done
    cases done
    exact .inr ⟨_,timeframe,rfl,target,rfl⟩

section
variable (fresh : ∀ row ∈ db.items, row.id ≠ item.id) (x : Int)
include fresh

theorem Database.row_append :
    Database.row { db with items := db.items ++ [item] } x = if x = item.id then some item else db.row x := by
  simp only [Database.row,List.find?_append]
  split
  · subst x
    have absent : db.items.find? (fun row => decide (row.id = item.id)) = none :=
      List.find?_eq_none.mpr fun row member => by simpa using fresh row member
    simp [absent]
  · rename_i other
    simp [Ne.symm other]

theorem Database.check_append :
    Database.check { db with items := db.items ++ [item] } x = if x = item.id then some item.status else db.check x := by
  simp only [Database.check]
  rw [Database.row_append fresh]
  split <;> rfl

end

theorem importItems_cons (done : importItems now db (item :: items) = (next,.ok count)) :
    ∃ middle number, importItem now db item = .ok middle ∧ importItems now middle items = (next,.ok number) := by
  unfold importItems at done
  split at done
  · rename_i middle first
    obtain ⟨rfl,counted⟩ := Prod.mk.inj done
    cases later : (importItems now middle items).2 with
    | error failure => simp [later,Except.map] at counted
    | ok number => exact ⟨middle,number,first,Prod.ext rfl later⟩
  · cases done

end ApexPipeline.Backlog
