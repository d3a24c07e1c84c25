import ApexPipeline.RefreshTokens

/-! What logins and refreshes can do to the table, whatever runs beside them, and when a refresh token
is used once only. -/
namespace ApexPipeline.RefreshTokens
open AuthService Service Coroutine Execution KafkaEnvelope List Database Service.Fate Write Job

def Database.hashes (db : Database) : List Bytes := db.tokens.map Token.tokenHash

def Present (db : Database) (tokenHash tokenFamily : Bytes) : Prop :=
  ∃ row ∈ db.tokens, row.tokenHash = tokenHash ∧ row.tokenFamily = tokenFamily

def Stage.family : Stage → Option Bytes
  | .found _ tokenFamily | .begun _ tokenFamily | .revoking _ tokenFamily | .rotating _ tokenFamily
  | .reused tokenFamily => some tokenFamily
  | .start | .failed | .ended => none

def Stage.token : Stage → Option Bytes
  | .found tokenHash _ | .begun tokenHash _ | .revoking tokenHash _ | .rotating tokenHash _ => some tokenHash
  | .start | .reused _ | .failed | .ended => none

def Stage.holds (db : Database) (job : Job) : Stage → Prop
  | .start | .ended => job.transaction = none
  | .found tokenHash tokenFamily => job.transaction = none ∧ Present db tokenHash tokenFamily
  | .begun tokenHash tokenFamily =>
    (∃ began, job.transaction = some ⟨began,[]⟩) ∧ Present db tokenHash tokenFamily
  | .revoking tokenHash tokenFamily =>
    (∃ began time, job.transaction = some ⟨began,[.revoke tokenHash time]⟩) ∧ Present db tokenHash tokenFamily
  | .rotating tokenHash tokenFamily =>
    (∃ began time row, job.transaction = some ⟨began,[.revoke tokenHash time,.insert row]⟩ ∧
      row.tokenFamily = tokenFamily ∧ row.revokedAt = none) ∧ Present db tokenHash tokenFamily
  | .reused tokenFamily => job.transaction = none ∧ ∃ tokenHash, Present db tokenHash tokenFamily
  | .failed => True

def exchanging (fate : Fate) (job : Job) : Command Table → Option Bytes
  | .queryAsync sql =>
    if sql = "COMMIT" ∧ fate.carried then (exchanged job.writes).head?.map Prod.fst else none
  | _ => none

/-- All that a command does to the table, by the token that it exchanges. -/
inductive Change (db : Database) (job : Job) : Option Bytes → Database → Prop
  | nothing : Change db job none db
  | answer (families : List Bytes) (own : ∀ family ∈ families, job.revoked = some family) :
      Change db job none { db with answered := db.answered ++ families }
  | login (row : Token) (valid : row.revokedAt = none) (fresh : ∀ other ∈ db.tokens, other.tokenFamily ≠ row.tokenFamily) :
      Change db job none (db.carryOut [.insert row])
  | revokeFamily (tokenFamily : Bytes) (time : Int) (present : ∃ tokenHash, Present db tokenHash tokenFamily)
      (own : job.family = some tokenFamily) : Change db job none (db.carryOut [.revokeFamily tokenFamily time])
  | exchange (tokenHash : Bytes) (time : Int) (row : Token) (valid : row.revokedAt = none)
      (present : Present db tokenHash row.tokenFamily) (own : job.family = some row.tokenFamily) :
      Change db job (some tokenHash) (db.carryOut [.revoke tokenHash time,.insert row])

def Unrevoked (db : Database) (tokenHash : Bytes) : Prop :=
  ∀ row ∈ db.tokens, row.tokenHash = tokenHash → row.revokedAt = none

structure Performed (db : Database) (taken : List Bytes) (job : Job) (stage : Stage) (token : Option Bytes) (next : Stage)
    (db' : Database) (job' : Job) : Prop where
  change : Change db job token db'
  holds : next.holds db' job'
  family : ∀ family ∈ next.family, job'.family = some family
  distinct : (db'.hashes ++ (job'.inserts ++ taken)).Nodup
  revoked : ∀ family, job'.revoked = some family → job.revoked = some family ∨ family ∈ db'.reused
  current : ∀ tokenHash ∈ next.token, db'.tokens = db.tokens ∧ (tokenHash ∈ stage.token ∨ Unrevoked db tokenHash)

theorem hashes_stamp (rows : List Token) [DecidablePred p] (time : Int) :
    (rows.map fun row => if p row then { row with revokedAt := some time } else row).map Token.tokenHash =
      rows.map Token.tokenHash := by
  rw [map_map]
  exact map_congr_left fun row _ => by simp only [Function.comp_apply]; split <;> rfl

theorem hashes_insert (rows : List Token) (row : Token) :
    ((insert row).apply rows).map Token.tokenHash = rows.map Token.tokenHash ++ [row.tokenHash] :=
  map_append

theorem inserts_none {job : Job} (idle : job.transaction = none) : job.inserts = [] := by
  rw [inserts,writes,idle]
  rfl

theorem insert_accepted {row : Token}
    (accepted : ¬((insert row).violates time rows || (insert row).waits taken) = true) :
    row.tokenHash ∉ rows.map Token.tokenHash ∧ row.tokenHash ∉ taken := by
  simp only [violates,waits,Bool.or_eq_true,any_eq_true,decide_eq_true_eq,contains_iff_mem,
    not_or,not_exists,not_and] at accepted
  refine ⟨fun member => ?_,accepted.2⟩
  obtain ⟨other,inside,same⟩ := mem_map.mp member
  exact accepted.1.1 other inside same

section Commands
variable {db db' : Database} {taken : List Bytes} {job job' : Job} {fate : Fate} {stage : Stage}

theorem lookedUp_row
    (looked : lookedUp tokenHash
      (fate.result ⟨(db.tokens.filter fun row => row.tokenHash = tokenHash).map Token.cells⟩) = stage) :
    stage = .ended ∨ ∃ row, row.tokenHash = tokenHash ∧ row ∈ db.tokens ∧ db.familyOf tokenHash = some row.tokenFamily ∧
      stage = if row.revokedAt = none then .found tokenHash row.tokenFamily else .reused row.tokenFamily := by
  cases error : fate.error with
  | some code =>
    left
    rw [← looked,result,error]
    rfl
  | none =>
    rw [result,error] at looked
    cases rows : db.tokens.filter fun row => row.tokenHash = tokenHash with
    | nil =>
      left
      rw [← looked,rows]
      rfl
    | cons row rest =>
      right
      have member : row ∈ db.tokens.filter fun row => row.tokenHash = tokenHash := rows ▸ mem_cons_self
      obtain ⟨inside,same⟩ := mem_filter.mp member
      refine ⟨row,of_decide_eq_true same,inside,?_,?_⟩
      · rw [familyOf,← head?_filter,rows]
        rfl
      · rw [← looked,rows]
        cases revoked : row.revokedAt <;>
          simp [lookedUp,PgResult.rowCount,PgResult.isNull,PgResult.value,PgResult.cell,Token.cells,revoked]

theorem Performed.over {next : Stage} (distinct : (db.hashes ++ (job.inserts ++ taken)).Nodup) (holds : next.holds db job)
    (family : next.family = none) (token : next.token = none) : Performed db taken job stage none next db job := by
  refine ⟨.nothing,holds,?_,distinct,fun _ => .inl,?_⟩
  · rw [family]
    nofun
  · rw [token]
    nofun

variable {reply : Except ErrorCode PgResult}

theorem distinct_idle (distinct : (db.hashes ++ (job.inserts ++ taken)).Nodup) (idle : job'.transaction = none) :
    (db.hashes ++ (job'.inserts ++ taken)).Nodup := by
  rw [inserts_none idle]
  exact distinct.sublist (List.Sublist.append_left (sublist_append_right _ _) _)

theorem begin_performed (holds : (Stage.found tokenHash tokenFamily).holds db job)
    (family : ∀ family ∈ (Stage.found tokenHash tokenFamily).family, job.family = some family)
    (distinct : (db.hashes ++ (job.inserts ++ taken)).Nodup)
    (performed : perform fate db taken job (.queryAsync "BEGIN") = some (reply,db',job')) :
    Performed db taken job (.found tokenHash tokenFamily) none
      ((Stage.found tokenHash tokenFamily).after (.queryAsync "BEGIN") reply) db' job' := by
  simp only [perform,if_true] at performed
  cases error : fate.error with
  | some code =>
    simp only [result,error] at performed
    cases performed
    exact .over distinct trivial rfl rfl
  | none =>
    simp only [result,error,Option.isNone_none,if_true] at performed
    cases performed
    refine ⟨.nothing,⟨⟨db.clock,rfl⟩,holds.2⟩,family,?_,fun _ => .inl,fun _ same => ⟨rfl,.inl same⟩⟩
    rwa [inserts_none holds.1] at distinct

theorem commit_performed (holds : (Stage.rotating tokenHash tokenFamily).holds db job)
    (family : ∀ family ∈ (Stage.rotating tokenHash tokenFamily).family, job.family = some family)
    (distinct : (db.hashes ++ (job.inserts ++ taken)).Nodup)
    (performed : perform fate db taken job (.queryAsync "COMMIT") = some (reply,db',job')) :
    Performed db taken job (.rotating tokenHash tokenFamily) (exchanging fate job (.queryAsync "COMMIT"))
      ((Stage.rotating tokenHash tokenFamily).after (.queryAsync "COMMIT") reply) db' job' := by
  have commit : "COMMIT" ≠ "BEGIN" := by decide
  obtain ⟨⟨began,time,row,transaction,same,valid⟩,present⟩ := holds
  have writes : job.writes = [.revoke tokenHash time,.insert row] := by rw [writes,transaction]; rfl
  simp only [perform,if_neg commit,if_true] at performed
  by_cases carried : fate.carried
  · have token : exchanging fate job (.queryAsync "COMMIT") = some tokenHash := by
      simp [exchanging,carried,writes,exchanged]
    rw [if_pos carried,writes] at performed
    rw [token]
    have hashes : (db.carryOut [.revoke tokenHash time,.insert row]).hashes = db.hashes ++ [row.tokenHash] :=
      (hashes_insert _ row).trans (congrArg (· ++ [row.tokenHash]) (hashes_stamp db.tokens time))
    have inserts : job.inserts = [row.tokenHash] := by rw [inserts,writes]; rfl
    have ended : (Stage.after (.rotating tokenHash tokenFamily) (.queryAsync "COMMIT") reply).family = none ∧
        (Stage.after (.rotating tokenHash tokenFamily) (.queryAsync "COMMIT") reply).token = none ∧
        ∀ db job, job.transaction = none →
          (Stage.after (.rotating tokenHash tokenFamily) (.queryAsync "COMMIT") reply).holds db job := by
      cases reply with
      | error code => exact ⟨rfl,rfl,fun _ _ _ => trivial⟩
      | ok _ => exact ⟨rfl,rfl,fun _ _ idle => idle⟩
    have own := family tokenFamily rfl
    cases performed
    refine ⟨.exchange tokenHash time row valid (same ▸ present) (same ▸ own),ended.2.2 _ _ rfl,?_,?_,fun _ => .inl,?_⟩
    · rw [ended.1]
      nofun
    · rw [hashes,inserts_none rfl,nil_append,append_assoc]
      rwa [inserts] at distinct
    · rw [ended.2.1]
      nofun
  · have token : exchanging fate job (.queryAsync "COMMIT") = none := by simp [exchanging,carried]
    rw [if_neg carried] at performed
    rw [token]
    cases error : fate.error with
    | none => simp [Service.Fate.carried,error] at carried
    | some code =>
      simp only [Service.Fate.result,error] at performed
      cases performed
      exact .over distinct trivial rfl rfl

theorem rollback_performed (distinct : (db.hashes ++ (job.inserts ++ taken)).Nodup)
    (performed : perform fate db taken job (.queryAsync "ROLLBACK") = some (reply,db',job')) :
    Performed db taken job stage none .failed db' job' := by
  have rollback : "ROLLBACK" ≠ "BEGIN" ∧ "ROLLBACK" ≠ "COMMIT" := by decide
  simp only [perform,if_neg rollback.1,if_neg rollback.2,if_true] at performed
  have kept : job'.transaction = none ∨ job' = job := by
    cases performed
    split
    · exact .inl rfl
    · exact .inr rfl
  have same : db' = db ∧ job'.revoked = job.revoked := by
    cases performed
    split <;> exact ⟨rfl,rfl⟩
  obtain ⟨rfl,revoked⟩ := same
  refine ⟨.nothing,trivial,nofun,?_,fun _ known => .inl (revoked ▸ known),nofun⟩
  rcases kept with idle | rfl
  · exact distinct_idle distinct idle
  · exact distinct

variable (holds : stage.holds db job) (family : ∀ family ∈ stage.family, job.family = some family)
  (distinct : (db.hashes ++ (job.inserts ++ taken)).Nodup)
include holds family distinct

theorem query_performed (permitted : stage.permit (.query sql params))
    (performed : perform fate db taken job (.query sql params) = some (reply,db',job')) :
    Performed db taken job stage none (stage.after (.query sql params) reply) db' job' := by
  by_cases lookup : sql = lookupSql
  · obtain ⟨rfl,tokenHash,rfl⟩ := permitted lookup
    subst lookup
    simp only [perform,select,if_true,head?_cons,Option.bind_some] at performed
    cases performed
    simp only [Stage.after,if_true,headD_cons]
    rcases lookedUp_row rfl with ended | ⟨row,same,inside,named,stage⟩
    · rw [ended]
      exact ⟨.nothing,holds,by rintro _ ⟨⟩,distinct,fun _ => .inl,by rintro _ ⟨⟩⟩
    have present : Present db tokenHash row.tokenFamily := ⟨row,inside,same,rfl⟩
    rw [stage]
    split
    · next valid =>
      refine ⟨.nothing,⟨holds,present⟩,?_,distinct,fun _ => .inl,?_⟩
      · rintro _ ⟨⟩
        exact named
      · rintro _ ⟨⟩
        refine ⟨rfl,.inr fun other member equal => ?_⟩
        have hashes : db.hashes.Nodup := (nodup_append.mp distinct).1
        rw [inj_on_of_nodup_map hashes member inside (equal.trans same.symm)]
        exact valid
    · refine ⟨.nothing,⟨holds,tokenHash,present⟩,?_,distinct,fun _ => .inl,by rintro _ ⟨⟩⟩
      rintro _ ⟨⟩
      exact named
  · rw [after_query stage params reply lookup]
    simp only [perform,if_neg lookup] at performed
    split at performed <;> cases performed <;>
      exact ⟨.nothing,holds,family,distinct,fun _ => .inl,fun _ same => ⟨rfl,.inl same⟩⟩

theorem execute_performed {reply : Except ErrorCode Int} (fresh : ∀ row ∈ db.tokens, row.tokenFamily ≠ fate.uuid)
    (permitted : stage.permit (.execute sql params))
    (performed : perform fate db taken job (.execute sql params) = some (reply,db',job')) :
    Performed db taken job stage none .ended db' job' := by
  rcases permitted with ⟨rfl,rfl,tokenHash,userId,ttl,rfl⟩ | ⟨tokenFamily,rfl,rfl,rfl⟩
  · simp only [perform,write?,if_true] at performed
    split at performed
    · cases performed
      exact .over distinct holds rfl rfl
    split at performed
    · cases performed
    next accepted =>
    obtain ⟨unique,free⟩ := insert_accepted accepted
    have same : job'.transaction = none ∧ job'.revoked = job.revoked := by
      cases performed
      split <;> exact ⟨holds,rfl⟩
    cases performed
    refine ⟨.login _ rfl fresh,same.1,nofun,?_,fun _ known => .inl (same.2 ▸ known),nofun⟩
    have hashes : (db.carryOut [.insert ⟨tokenHash,userId,db.clock + seconds ttl,none,fate.uuid⟩]).hashes =
        db.hashes ++ [tokenHash] := hashes_insert _ _
    rw [inserts_none holds] at distinct
    rw [hashes,inserts_none same.1,append_assoc]
    exact nodup_middle.mpr (nodup_cons.mpr ⟨by simpa using ⟨unique,free⟩,distinct⟩)
  · have other : revokeFamilySql ≠ revokeSql := by decide
    simp only [perform,write?,if_neg other,if_true] at performed
    split at performed
    · cases performed
      exact ⟨.nothing,holds.1,nofun,distinct,fun _ => .inl,nofun⟩
    split at performed <;> cases performed
    have hashes : (db.carryOut [.revokeFamily tokenFamily db.clock]).hashes = db.hashes := hashes_stamp _ _
    have recorded : tokenFamily ∈ (db.carryOut [.revokeFamily tokenFamily db.clock]).reused := by
      simp [carryOut,family?]
    refine ⟨.revokeFamily tokenFamily db.clock holds.2 (family _ rfl),?_,nofun,?_,?_,nofun⟩
    · split <;> exact holds.1
    · rw [hashes]
      refine distinct_idle distinct ?_
      split <;> exact holds.1
    · intro family known
      split at known
      · cases known
        exact .inr recorded
      · exact .inl known

theorem queryAsync_performed (permitted : stage.permit (.queryAsync sql))
    (performed : perform fate db taken job (.queryAsync sql) = some (reply,db',job')) :
    Performed db taken job stage (exchanging fate job (.queryAsync sql)) (stage.after (.queryAsync sql) reply) db' job' := by
  rcases permitted with ⟨rfl,tokenHash,tokenFamily,rfl⟩ | ⟨rfl,tokenHash,tokenFamily,rfl⟩ | ⟨rfl,rfl⟩
  · have other : "BEGIN" ≠ "COMMIT" := by decide
    simp only [exchanging,other,false_and,if_false]
    exact begin_performed holds family distinct performed
  · exact commit_performed holds family distinct performed
  · have other : "ROLLBACK" ≠ "COMMIT" := by decide
    simp only [exchanging,other,false_and,if_false]
    exact rollback_performed distinct performed

theorem queryParamsAsync_performed (permitted : stage.permit (.queryParamsAsync sql params))
    (performed : perform fate db taken job (.queryParamsAsync sql params) = some (reply,db',job')) :
    Performed db taken job stage none (stage.after (.queryParamsAsync sql params) reply) db' job' := by
  rcases permitted with ⟨tokenHash,tokenFamily,rfl,rfl,rfl⟩ | ⟨tokenHash,tokenFamily,successor,userId,ttl,rfl,rfl,rfl⟩
  · obtain ⟨⟨began,transaction⟩,present⟩ := holds
    have inserts : job.inserts = [] := by rw [inserts,writes,transaction]; rfl
    simp only [perform,transaction,write?,if_true] at performed
    cases error : fate.error with
    | some code =>
      simp only [result,error,Option.isSome_some,if_true] at performed
      cases performed
      exact .over distinct trivial rfl rfl
    | none =>
      simp only [result,error,Option.isSome_none,Bool.false_eq_true,if_false,violates,waits,Bool.or_self] at performed
      cases performed
      refine ⟨.nothing,⟨⟨began,began,rfl⟩,present⟩,family,?_,fun _ => .inl,fun _ same => ⟨rfl,.inl same⟩⟩
      rwa [inserts] at distinct
  · obtain ⟨⟨began,time,transaction⟩,present⟩ := holds
    have inserts : job.inserts = [] := by rw [inserts,writes,transaction]; rfl
    simp only [perform,transaction,write?,if_true] at performed
    cases error : fate.error with
    | some code =>
      simp only [result,error,Option.isSome_some,if_true] at performed
      cases performed
      exact .over distinct trivial rfl rfl
    | none =>
      simp only [result,error,Option.isSome_none,Bool.false_eq_true,if_false] at performed
      split at performed
      · cases performed
      next accepted =>
      obtain ⟨unique,free⟩ := insert_accepted accepted
      cases performed
      refine ⟨.nothing,⟨⟨began,time,_,rfl,rfl,rfl⟩,present⟩,family,?_,fun _ => .inl,fun _ same => ⟨rfl,.inl same⟩⟩
      rw [foldl_cons,foldl_nil,apply,hashes_stamp] at unique
      rw [inserts] at distinct
      exact nodup_middle.mpr (nodup_cons.mpr ⟨by simpa using ⟨unique,free⟩,distinct⟩)

theorem produce_performed {message : Message Table} {reply : Except ErrorCode Unit}
    (performed : perform fate db taken job (.produce topic key message) = some (reply,db',job')) :
    Performed db taken job stage none stage db' job' := by
  obtain ⟨families,own,rfl,rfl⟩ : ∃ families : List Bytes, (∀ family ∈ families, job.revoked = some family) ∧
      { db with answered := db.answered ++ families } = db' ∧ job = job' := by
    simp only [perform] at performed
    cases performed
    refine ⟨_,?_,rfl,rfl⟩
    split
    · exact fun family member => Option.mem_toList.mp member
    · nofun
  refine ⟨.answer families own,?_,family,distinct,fun _ => .inl,fun _ same => ⟨rfl,.inl same⟩⟩
  cases stage <;> exact holds

theorem perform_performed {command : Command Table} {reply : Reply command}
    (fresh : ∀ row ∈ db.tokens, row.tokenFamily ≠ fate.uuid)
    (permitted : stage.permit command) (performed : perform fate db taken job command = some (reply,db',job')) :
    Performed db taken job stage (exchanging fate job command) (stage.after command reply) db' job' := by
  cases command with
  | query sql params => exact query_performed holds family distinct permitted performed
  | execute sql params => exact execute_performed holds family distinct fresh permitted performed
  | queryAsync sql => exact queryAsync_performed holds family distinct permitted performed
  | queryParamsAsync sql params => exact queryParamsAsync_performed holds family distinct permitted performed
  | produce topic key message => exact produce_performed holds family distinct performed
  | discard =>
    cases permitted
    cases performed
    exact ⟨.nothing,trivial,nofun,distinct_idle distinct rfl,fun _ => .inl,nofun⟩
  | _ =>
    cases performed
    exact ⟨.nothing,holds,family,distinct,fun _ => .inl,fun _ same => ⟨rfl,.inl same⟩⟩

end Commands

/-- The tokens of a family that can be exchanged, as far as revocation goes. -/
def valid (rows : List Token) (tokenFamily : Bytes) : List Token :=
  rows.filter fun row => row.tokenFamily = tokenFamily ∧ row.revokedAt = none

/-- Every token is exchanged once at most, a family has one valid token at most, and none after the use
of a revoked one, in particular once a client has been told. -/
structure SingleUse (db : Database) : Prop where
  once : (db.exchanges.map Prod.fst).Nodup
  one : ∀ tokenFamily, (valid db.tokens tokenFamily).length ≤ 1
  reuse : ∀ tokenFamily ∈ db.reused, valid db.tokens tokenFamily = []
  told : ∀ tokenFamily ∈ db.answered, valid db.tokens tokenFamily = []

structure Ledger (db : Database) : Prop where
  cause : ∀ row ∈ db.tokens, row.revokedAt ≠ none →
    row.tokenHash ∈ db.exchanges.map Prod.fst ∨ row.tokenFamily ∈ db.reused
  spent : ∀ tokenHash ∈ db.exchanges.map Prod.fst, ∃ row ∈ db.tokens, row.tokenHash = tokenHash ∧ row.revokedAt ≠ none
  known : ∀ tokenFamily ∈ db.reused, ∃ tokenHash, Present db tokenHash tokenFamily
  answered : ∀ tokenFamily ∈ db.answered, tokenFamily ∈ db.reused

section Changes
variable {db db' : Database} {job : Job}

def Later (row next : Token) : Prop :=
  next.tokenHash = row.tokenHash ∧ next.tokenFamily = row.tokenFamily ∧ (row.revokedAt ≠ none → next.revokedAt ≠ none)

variable {row : Token}

theorem Write.keeps (write : Write) (member : row ∈ rows) : ∃ next ∈ write.apply rows, Later row next := by
  cases write with
  | revoke | revokeFamily =>
    refine ⟨_,mem_map_of_mem member,?_⟩
    split
    · exact ⟨rfl,rfl,fun _ => nofun⟩
    · exact ⟨rfl,rfl,id⟩
  | insert new => exact ⟨row,mem_append_left _ member,rfl,rfl,id⟩

theorem carryOut_keeps (writes : List Write) (member : row ∈ db.tokens) :
    ∃ next ∈ (db.carryOut writes).tokens, Later row next := by
  simp only [carryOut]
  generalize db.tokens = rows at member
  induction writes generalizing rows row with
  | nil => exact ⟨row,member,rfl,rfl,id⟩
  | cons write rest ih =>
    obtain ⟨middle,inside,hash,family,revoked⟩ := write.keeps member
    obtain ⟨next,last,hash',family',revoked'⟩ := ih _ inside
    exact ⟨next,last,hash'.trans hash,family'.trans family,revoked' ∘ revoked⟩

theorem Change.keeps (change : Change db job token db') (member : row ∈ db.tokens) :
    ∃ next ∈ db'.tokens, Later row next := by
  cases change with
  | nothing | answer => exact ⟨row,member,rfl,rfl,id⟩
  | login | revokeFamily | exchange => exact carryOut_keeps _ member

theorem Present.later (present : Present db tokenHash tokenFamily) (change : Change db job token db') :
    Present db' tokenHash tokenFamily := by
  obtain ⟨row,member,hash,family⟩ := present
  obtain ⟨next,inside,hash',family',-⟩ := change.keeps member
  exact ⟨next,inside,hash'.trans hash,family'.trans family⟩

theorem Change.reused_mono (change : Change db job token db') (member : tokenFamily ∈ db.reused) :
    tokenFamily ∈ db'.reused := by
  cases change with
  | nothing | answer => exact member
  | login | revokeFamily | exchange => exact mem_append_left _ member

section
variable (rows : List Token)

theorem valid_insert (new : row.revokedAt = none) (tokenFamily : Bytes) :
    valid ((insert row).apply rows) tokenFamily =
      valid rows tokenFamily ++ if row.tokenFamily = tokenFamily then [row] else [] := by
  rw [apply,valid,filter_append,valid]
  by_cases same : row.tokenFamily = tokenFamily <;> simp [same,new]

theorem valid_revoke (tokenHash : Bytes) (time : Int) (tokenFamily : Bytes) :
    valid ((revoke tokenHash time).apply rows) tokenFamily =
      (valid rows tokenFamily).filter fun row => row.tokenHash ≠ tokenHash := by
  rw [apply,valid,valid]
  induction rows with
  | nil => rfl
  | cons row rest ih =>
    rw [map_cons,filter_cons,filter_cons,ih]
    by_cases revoked : row.tokenHash = tokenHash <;> by_cases kept : row.tokenFamily = tokenFamily ∧ row.revokedAt = none <;>
      simp [revoked,kept]

theorem valid_revokeFamily (revoked : Bytes) (time : Int) (tokenFamily : Bytes) :
    valid ((revokeFamily revoked time).apply rows) tokenFamily =
      if tokenFamily = revoked then [] else valid rows tokenFamily := by
  rw [apply,valid,valid]
  induction rows with
  | nil => simp
  | cons row rest ih =>
    rw [map_cons,filter_cons,filter_cons,ih]
    by_cases same : tokenFamily = revoked <;> by_cases hit : row.tokenFamily = revoked ∧ row.revokedAt = none <;>
      grind

end

theorem SingleUse.unexchanged (single : SingleUse db) (ledger : Ledger db)
    (owned : ∀ tokenFamily, job.revoked = some tokenFamily → tokenFamily ∈ db.reused)
    (change : Change db job none db') : SingleUse db' := by
  generalize token : (none : Option Bytes) = exchanged at change
  cases change with
  | nothing => exact single
  | answer families own =>
    refine ⟨single.once,single.one,single.reuse,fun tokenFamily member => ?_⟩
    rcases mem_append.mp member with before | new
    · exact single.told tokenFamily before
    · exact single.reuse tokenFamily (owned tokenFamily (own tokenFamily new))
  | login row new fresh =>
    have unused : valid db.tokens row.tokenFamily = [] := by
      refine filter_eq_nil_iff.mpr fun other member => ?_
      simp [fresh other member]
    have others : ∀ tokenFamily ∈ db.reused, row.tokenFamily ≠ tokenFamily := by
      rintro tokenFamily member rfl
      obtain ⟨tokenHash,other,inside,-,same⟩ := ledger.known _ member
      exact fresh other inside same
    have kept : ∀ tokenFamily ∈ db.reused, valid (db.carryOut [.insert row]).tokens tokenFamily = [] := by
      intro tokenFamily member
      rw [carryOut,foldl_cons,foldl_nil,valid_insert _ new,if_neg (others tokenFamily member),
        single.reuse tokenFamily member,append_nil]
    refine ⟨by simpa [carryOut,exchanged] using single.once,fun tokenFamily => ?_,?_,?_⟩
    · rw [carryOut,foldl_cons,foldl_nil,valid_insert _ new]
      split
      · next same => simp [← same,unused]
      · simpa using single.one tokenFamily
    · intro tokenFamily member
      exact kept tokenFamily (by simpa [carryOut,family?] using member)
    · exact fun tokenFamily member => kept tokenFamily (ledger.answered tokenFamily member)
  | revokeFamily revoked time present own =>
    have kept : ∀ tokenFamily, (valid (db.carryOut [.revokeFamily revoked time]).tokens tokenFamily) =
        if tokenFamily = revoked then [] else valid db.tokens tokenFamily := valid_revokeFamily db.tokens revoked time
    refine ⟨by simpa [carryOut,exchanged] using single.once,fun tokenFamily => ?_,?_,?_⟩
    · rw [kept]
      split
      · exact Nat.zero_le _
      · exact single.one tokenFamily
    · intro tokenFamily member
      rw [kept]
      split
      · rfl
      · next other =>
        refine single.reuse tokenFamily ?_
        simpa [carryOut,family?,other] using member
    · intro tokenFamily member
      rw [kept,single.told tokenFamily member,ite_self]
  | exchange => cases token

theorem SingleUse.exchange_iff (single : SingleUse db) (ledger : Ledger db) (distinct : db.hashes.Nodup)
    (new : row.revokedAt = none) (present : Present db tokenHash row.tokenFamily) :
    SingleUse (db.carryOut [.revoke tokenHash time,.insert row]) ↔ Unrevoked db tokenHash := by
  obtain ⟨old,inside,hash,family⟩ := present
  have rows : ∀ tokenFamily, valid (db.carryOut [.revoke tokenHash time,.insert row]).tokens tokenFamily =
      (valid db.tokens tokenFamily).filter (fun row => row.tokenHash ≠ tokenHash) ++
        if row.tokenFamily = tokenFamily then [row] else [] := by
    intro tokenFamily
    rw [← valid_revoke db.tokens tokenHash time]
    exact valid_insert _ new tokenFamily
  have exchanges : (db.carryOut [.revoke tokenHash time,.insert row]).exchanges.map Prod.fst =
      db.exchanges.map Prod.fst ++ [tokenHash] := map_append
  have reused : (db.carryOut [.revoke tokenHash time,.insert row]).reused = db.reused := append_nil _
  constructor
  · intro after other member same
    by_contra revoked
    rcases ledger.cause other member revoked with before | before
    · have once := after.once
      rw [exchanges,← same] at once
      exact (nodup_append.mp once).2.2 _ before _ (mem_singleton_self _) rfl
    have sole : other = old := inj_on_of_nodup_map distinct member inside (same.trans hash.symm)
    have none' := after.reuse other.tokenFamily (reused.symm ▸ before)
    rw [rows,sole,family] at none'
    simp at none'
  · intro current
    have here : old ∈ valid db.tokens row.tokenFamily := by
      simpa [valid] using ⟨inside,family,current old inside hash⟩
    have gone : (valid db.tokens row.tokenFamily).filter (fun row => row.tokenHash ≠ tokenHash) = [] := by
      obtain ⟨sole,only⟩ := length_eq_one_iff.mp
        (Nat.le_antisymm (single.one row.tokenFamily) (length_pos_of_mem here))
      rw [only] at here ⊢
      cases mem_singleton.mp here
      simp [hash]
    have kept : ∀ tokenFamily ∈ db.reused, valid (db.carryOut [.revoke tokenHash time,.insert row]).tokens tokenFamily = [] := by
      intro tokenFamily member
      have none' := single.reuse tokenFamily member
      have other : row.tokenFamily ≠ tokenFamily := by
        rintro rfl
        rw [none'] at here
        cases here
      rw [rows,none',if_neg other]
      rfl
    refine ⟨?_,fun tokenFamily => ?_,fun tokenFamily member => kept tokenFamily (reused ▸ member),
      fun tokenFamily member => kept tokenFamily (ledger.answered tokenFamily member)⟩
    · rw [exchanges]
      refine nodup_append.mpr ⟨single.once,nodup_singleton _,?_⟩
      rintro spent before _ last rfl
      cases mem_singleton.mp last
      obtain ⟨other,member,same,revoked⟩ := ledger.spent _ before
      exact revoked (current other member same)
    · rw [rows]
      split
      · next same =>
        rw [← same,gone]
        exact Nat.le_refl 1
      · rw [append_nil]
        exact (length_filter_le _ _).trans (single.one tokenFamily)

theorem Ledger.later (ledger : Ledger db) (owned : ∀ tokenFamily, job.revoked = some tokenFamily → tokenFamily ∈ db.reused)
    (change : Change db job token db') : Ledger db' := by
  have persists : ∀ {tokenHash tokenFamily}, Present db tokenHash tokenFamily → Present db' tokenHash tokenFamily :=
    fun present => present.later change
  have known : ∀ tokenFamily ∈ db.reused, ∃ tokenHash, Present db' tokenHash tokenFamily := fun tokenFamily member =>
    (ledger.known tokenFamily member).imp fun _ present => persists present
  have spent : ∀ tokenHash ∈ db.exchanges.map Prod.fst,
      ∃ row ∈ db'.tokens, row.tokenHash = tokenHash ∧ row.revokedAt ≠ none := by
    intro tokenHash member
    obtain ⟨row,inside,same,revoked⟩ := ledger.spent tokenHash member
    obtain ⟨next,later,hash,-,still⟩ := change.keeps inside
    exact ⟨next,later,hash.trans same,still revoked⟩
  cases change with
  | nothing => exact ledger
  | answer families own =>
    refine ⟨ledger.cause,spent,known,fun tokenFamily member => ?_⟩
    rcases mem_append.mp member with before | now
    · exact ledger.answered tokenFamily before
    · exact owned tokenFamily (own tokenFamily now)
  | login row new fresh =>
    refine ⟨fun other member revoked => ?_,?_,?_,fun tokenFamily member => mem_append_left _ (ledger.answered _ member)⟩
    · rcases mem_concat member with before | rfl
      · exact (ledger.cause other before revoked).imp (by simp [carryOut,exchanged]) (mem_append_left _)
      · exact absurd new revoked
    · intro tokenHash member
      exact spent tokenHash (by simpa [carryOut,exchanged] using member)
    · intro tokenFamily member
      exact known tokenFamily (by simpa [carryOut,family?] using member)
  | revokeFamily revoked time present own =>
    refine ⟨fun other member gone => ?_,?_,?_,fun tokenFamily member => mem_append_left _ (ledger.answered _ member)⟩
    · obtain ⟨row,inside,same⟩ := mem_map.mp member
      split at same
      · next hit =>
        right
        rw [← same]
        exact mem_append_right _ (by simp [family?,hit.1])
      · rw [← same] at gone ⊢
        exact (ledger.cause row inside gone).imp (by simp [carryOut,exchanged]) (mem_append_left _)
    · intro tokenHash member
      exact spent tokenHash (by simpa [carryOut,exchanged] using member)
    · intro tokenFamily member
      rcases mem_append.mp member with before | now
      · exact known tokenFamily before
      · have same : tokenFamily = revoked := by simpa [family?] using now
        obtain ⟨tokenHash,there⟩ := present
        exact ⟨tokenHash,same ▸ persists there⟩
  | exchange tokenHash time row new present own =>
    refine ⟨fun other member gone => ?_,?_,?_,fun tokenFamily member => mem_append_left _ (ledger.answered _ member)⟩
    · rcases mem_concat member with before | rfl
      · obtain ⟨old,inside,same⟩ := mem_map.mp before
        split at same
        · next hit =>
          left
          rw [← same]
          simp [carryOut,exchanged,hit]
        · rw [← same] at gone ⊢
          exact (ledger.cause old inside gone).imp (by simp [carryOut,exchanged]; tauto) (mem_append_left _)
      · exact absurd new gone
    · intro exchanged' member
      rcases mem_concat (map_append ▸ member) with before | rfl
      · exact spent exchanged' before
      · obtain ⟨old,inside,hash,-⟩ := present
        refine ⟨{ old with revokedAt := some time },mem_append_left _ ?_,hash,nofun⟩
        exact mem_map.mpr ⟨old,inside,if_pos hash⟩
    · intro tokenFamily member
      exact known tokenFamily (by simpa [carryOut,family?] using member)

end Changes

structure At (db : Database) (job : Job) (stage : Stage) : Prop where
  holds : stage.holds db job
  family : ∀ family ∈ stage.family, job.family = some family
  owned : ∀ tokenFamily, job.revoked = some tokenFamily → tokenFamily ∈ db.reused

structure Sane (s : System) : Prop where
  distinct : (s.shared.hashes ++ (s.jobs.map Prod.fst).flatMap Job.inserts).Nodup
  ledger : Ledger s.shared
  jobs : ∀ job ∈ s.jobs, Crew.Tracked Stage.permit Stage.learn (At s.shared) job

variable {stage : Stage} {command : Command Table} {reply : Reply command} {s : System}

theorem At.later (here : At db job stage) (change : Change db other token db') : At db' job stage := by
  refine ⟨?_,here.family,fun tokenFamily own => change.reused_mono (here.owned tokenFamily own)⟩
  have holds := here.holds
  cases stage with
  | start | ended | failed => exact holds
  | found | begun | revoking | rotating => exact holds.imp_right fun present => present.later change
  | reused => exact holds.imp_right fun present => present.imp fun _ present => present.later change

theorem At.tick {db : Database} (here : At db job stage) (elapsed : Nat) :
    At { db with clock := db.clock + elapsed } job stage := by
  refine ⟨?_,here.family,here.owned⟩
  have holds := here.holds
  cases stage <;> exact holds

theorem Performed.at_stage {next : Stage} (done : Performed db taken job stage token next db' job')
    (here : At db job stage) : At db' job' next :=
  ⟨done.holds,done.family,fun tokenFamily own =>
    (done.revoked tokenFamily own).elim (fun old => done.change.reused_mono (here.owned tokenFamily old)) id⟩

theorem inserts_perm {jobs rest : List (Job × Task Table Outcome)} (perm : jobs.Perm (job :: rest)) :
    ((jobs.map Prod.fst).flatMap inserts).Perm (job.1.inserts ++ (rest.map Prod.fst).flatMap inserts) :=
  (perm.map Prod.fst).flatMap_right inserts

theorem attempt_performed (sane : Sane s)
    (before : s.jobs.Perm ((job,program) :: s.jobs.eraseIdx index)) (here : At s.shared job stage)
    (permitted : stage.permit command)
    (performed : attempt fate s.shared (s.others index) job command = some (reply,db',job')) :
    Performed s.shared ((s.others index).flatMap inserts) job stage (exchanging fate job command)
      (stage.after command reply) db' job' := by
  have distinct := ((inserts_perm before).append_left _).nodup_iff.mp sane.distinct
  rw [attempt] at performed
  split at performed
  · cases performed
  · next fresh => exact perform_performed here.holds here.family distinct (by simpa using fresh) permitted performed

theorem Sane.started (sane : Sane s) (follows : Follows (fun _ _ => True) .start task) :
    Sane (s.start {} task) := by
  refine ⟨?_,sane.ledger,Crew.tracked_start sane.jobs ⟨.start,⟨rfl,nofun,nofun⟩,follows⟩⟩
  simpa [Crew.start,inserts,writes] using sane.distinct

theorem Sane.resume {next : System} (sane : Sane s) (steps : s.resume (attempt fate) index = some next) : Sane next := by
  obtain ⟨job,job',command,resume,reply,stage,there,before,after,here,permitted,performed,follows⟩ :=
    Crew.tracked_resumed sane.jobs steps
  have done := attempt_performed sane before here permitted performed
  refine ⟨?_,sane.ledger.later here.owned done.change,Crew.tracked_next sane.jobs after ?_ ?_⟩
  · exact ((inserts_perm after).append_left _).nodup_iff.mpr done.distinct
  · exact ⟨stage.after command reply,done.at_stage here,follows _ rfl⟩
  · exact fun other _ tracked => tracked.mono fun _ there => there.later done.change

theorem sane_step (cfg : Config) (s : System) (action : Action) (next : System) (sane : Sane s)
    (steps : step cfg s action = some next) : Sane next := by
  cases action with
  | login metadata request =>
    cases steps
    exact sane.started (onLogin_follows cfg metadata request)
  | refresh metadata request =>
    cases steps
    exact sane.started (onRefreshToken_follows cfg metadata request)
  | resume index fate => exact sane.resume steps
  | tick elapsed =>
    cases steps
    refine ⟨sane.distinct,⟨sane.ledger.cause,sane.ledger.spent,sane.ledger.known,sane.ledger.answered⟩,fun job member => ?_⟩
    exact (sane.jobs job member).mono fun _ here => here.tick elapsed

theorem sane_start : Sane ⟨{},[]⟩ := ⟨nodup_nil,⟨nofun,nofun,nofun,nofun⟩,nofun⟩

def nextExchange (fate : Fate) (job : Job × Task Table Outcome) : Option Bytes :=
  match job.2 with
  | .done _ => none
  | .await command _ => exchanging fate job.1 command

/-- A token that is exchanged has not been revoked. -/
def Current (s : System) : Action → Prop
  | .resume index fate => ∀ job ∈ s.jobs[index]?, ∀ tokenHash ∈ nextExchange fate job, Unrevoked s.shared tokenHash
  | _ => True

theorem singleUse_step {next : System} (single : SingleUse s.shared)
    (sane : Sane s) (steps : step cfg s action = some next) : SingleUse next.shared ↔ Current s action := by
  cases action with
  | login | refresh =>
    cases steps
    exact iff_of_true single trivial
  | tick elapsed =>
    cases steps
    exact iff_of_true ⟨single.once,single.one,single.reuse,single.told⟩ trivial
  | resume index fate =>
    obtain ⟨job,job',command,resume,reply,stage,there,before,-,here,permitted,performed,-⟩ :=
      Crew.tracked_resumed sane.jobs steps
    have change := (attempt_performed sane before here permitted performed).change
    have distinct : s.shared.hashes.Nodup := (nodup_append.mp sane.distinct).1
    simp only [Current,there,Option.mem_def,Option.some.injEq,forall_eq',nextExchange]
    generalize exchanging fate job command = exchanged at change
    generalize next.shared = after at change
    cases exchanged with
    | none => exact iff_of_true (single.unexchanged sane.ledger here.owned change) nofun
    | some tokenHash =>
      cases change with
      | exchange _ time row new present own =>
        rw [single.exchange_iff sane.ledger distinct new present]
        simp

def finished (job : Job × Task Table Outcome) : Bool :=
  match job.2 with
  | .done _ => true
  | .await .. => false

def lookupOf : Command Table → Option Bytes
  | .query sql params => if sql = lookupSql then params.head? else none
  | _ => none

def nextLookup (job : Job × Task Table Outcome) : Option Bytes :=
  match job.2 with
  | .done _ => none
  | .await command _ => lookupOf command

/-- A token is looked up when the refreshes with other tokens of its family are over. -/
def Alone (s : System) : Action → Prop
  | .resume index _ => ∀ job ∈ s.jobs[index]?, ∀ tokenHash ∈ nextLookup job,
      ∀ tokenFamily ∈ s.shared.familyOf tokenHash,
      ∀ other ∈ s.jobs.eraseIdx index, other.1.family = some tokenFamily → finished other
  | _ => True

instance (s : System) : (action : Action) → Decidable (Alone s action)
  | .resume index _ => inferInstanceAs (Decidable (∀ job ∈ s.jobs[index]?, _))
  | .login .. | .refresh .. | .tick _ => inferInstanceAs (Decidable True)

def Unrelated (job other : Job × Task Table Outcome) : Prop :=
  ∀ tokenFamily, job.1.family = some tokenFamily → other.1.family = some tokenFamily → finished job ∨ finished other

def Ahead (db : Database) (job : Job) (stage : Stage) : Prop :=
  At db job stage ∧ ∀ tokenHash ∈ stage.token, Unrevoked db tokenHash

structure Apart (s : System) : Prop where
  sane : Sane s
  unrelated : s.jobs.Pairwise Unrelated
  ahead : ∀ job ∈ s.jobs, Crew.Tracked Stage.permit Stage.learn (Ahead s.shared) job

theorem perform_family (performed : perform fate db taken job command = some (reply,db',job')) :
    job'.family = job.family ∨ ∃ tokenHash ∈ lookupOf command, job'.family = db.familyOf tokenHash := by
  cases command with
  | query sql params =>
    simp only [perform] at performed
    split at performed
    · next found selected =>
      by_cases lookup : sql = lookupSql
      · rw [if_pos lookup] at performed
        cases performed
        match params, selected with
        | [tokenHash], _ => exact .inr ⟨tokenHash,by rw [lookupOf,if_pos lookup]; rfl,rfl⟩
      · rw [if_neg lookup] at performed
        cases performed
        exact .inl rfl
    · cases performed
      exact .inl rfl
  | execute | queryAsync | queryParamsAsync =>
    left
    simp only [perform] at performed
    repeat' split at performed
    all_goals cases performed
    all_goals rfl
  | _ =>
    cases performed
    exact .inl rfl

theorem Change.unrevoked (change : Change db job token db') (distinct : db.hashes.Nodup)
    (present : Present db tokenHash tokenFamily) (current : Unrevoked db tokenHash)
    (apart : job.family ≠ some tokenFamily) : Unrevoked db' tokenHash := by
  obtain ⟨old,inside,hash,family⟩ := present
  have sole : ∀ row ∈ db.tokens, row.tokenHash = tokenHash → row.tokenFamily = tokenFamily := by
    intro row member same
    rw [inj_on_of_nodup_map distinct member inside (same.trans hash.symm)]
    exact family
  cases change with
  | nothing | answer => exact current
  | login row new fresh =>
    intro other member same
    rcases mem_concat member with before | rfl
    · exact current other before same
    · exact new
  | revokeFamily revoked time present own =>
    intro other member same
    obtain ⟨row,before,rfl⟩ := mem_map.mp member
    split at same
    · next hit =>
      rw [own,← hit.1,sole row before same] at apart
      exact absurd rfl apart
    · next missed =>
      rw [if_neg missed]
      exact current row before same
  | exchange exchanged time row new present own =>
    intro other member same
    rcases mem_concat member with before | rfl
    · obtain ⟨row',earlier,rfl⟩ := mem_map.mp before
      split at same
      · next hit =>
        obtain ⟨row'',there,hash',family'⟩ := present
        rw [own,← family',sole row'' there (hash'.trans (hit.symm.trans same))] at apart
        exact absurd rfl apart
      · next missed =>
        rw [if_neg missed]
        exact current row' earlier same
    · exact new

theorem At.present (here : At db job stage) (token : tokenHash ∈ stage.token) :
    ∃ tokenFamily, job.family = some tokenFamily ∧ Present db tokenHash tokenFamily := by
  have holds := here.holds
  have family := here.family
  cases stage with
  | found | begun | revoking | rotating =>
    cases token
    exact ⟨_,family _ rfl,holds.2⟩
  | start | reused | failed | ended => cases token

theorem At.exchanging (here : At db job stage) (permitted : stage.permit command)
    (exchanges : exchanging fate job command = some tokenHash) : stage.token = some tokenHash := by
  cases command with
  | queryAsync sql =>
    simp only [RefreshTokens.exchanging] at exchanges
    split at exchanges
    · next commit =>
      have other : "COMMIT" ≠ "BEGIN" ∧ "COMMIT" ≠ "ROLLBACK" := by decide
      rcases permitted with ⟨begins,-⟩ | ⟨-,presented,tokenFamily,rfl⟩ | ⟨rolls,-⟩
      · exact absurd (commit.1.symm.trans begins) other.1
      · obtain ⟨⟨began,time,row,transaction,-,-⟩,-⟩ := here.holds
        rw [writes,transaction] at exchanges
        exact exchanges
      · exact absurd (commit.1.symm.trans rolls) other.2
    · cases exchanges
  | _ => cases exchanges

theorem Apart.started (apart : Apart s)
    (follows : Follows (fun _ _ => True) .start task) : Apart (s.start {} task) := by
  refine ⟨apart.sane.started follows,?_,Crew.tracked_start apart.ahead ⟨.start,⟨⟨rfl,nofun,nofun⟩,nofun⟩,follows⟩⟩
  refine pairwise_append.mpr ⟨apart.unrelated,pairwise_singleton _ _,?_⟩
  intro job _ new member tokenFamily _ known
  cases mem_singleton.mp member
  cases known

theorem Unrelated.symm (unrelated : Unrelated job other) : Unrelated other job :=
  fun tokenFamily second first => (unrelated tokenFamily first second).symm

section
variable {next : System} (apart : Apart s)
include apart

theorem Apart.resume (alone : Alone s (.resume index fate))
    (steps : s.resume (attempt fate) index = some next) : Apart next := by
  obtain ⟨job,job',command,resume,reply,stage,there,before,after,⟨here,current⟩,permitted,performed,follows⟩ :=
    Crew.tracked_resumed apart.ahead steps
  have done := attempt_performed apart.sane before here permitted performed
  obtain ⟨others,rest⟩ := pairwise_cons.mp ((before.pairwise_iff Unrelated.symm).mp apart.unrelated)
  refine ⟨apart.sane.resume steps,?_,Crew.tracked_next apart.ahead after ?_ ?_⟩
  · refine (after.pairwise_iff Unrelated.symm).mpr (pairwise_cons.mpr ⟨?_,rest⟩)
    intro other member tokenFamily own known
    right
    rw [attempt] at performed
    split at performed
    · cases performed
    rcases perform_family performed with kept | ⟨tokenHash,looked,found⟩
    · exact (others other member tokenFamily (kept ▸ own) known).resolve_left nofun
    · exact alone _ there tokenHash looked tokenFamily (found ▸ own) other member known
  · refine ⟨stage.after command reply,⟨done.at_stage here,fun tokenHash token => ?_⟩,follows _ rfl⟩
    obtain ⟨tokens,seen⟩ := done.current tokenHash token
    intro row among
    exact seen.elim (current tokenHash) id row (tokens ▸ among)
  · intro other member tracked
    cases settled : finished other with
    | true =>
      obtain ⟨own,program⟩ := other
      obtain ⟨known,⟨held,-⟩,-⟩ := tracked
      cases program with
      | done outcome => exact ⟨.failed,⟨⟨trivial,nofun,(held.later done.change).owned⟩,nofun⟩,trivial⟩
      | await command resume => cases settled
    | false =>
      refine tracked.mono fun stage held => ⟨held.1.later done.change,fun tokenHash token => ?_⟩
      obtain ⟨tokenFamily,known,present⟩ := held.1.present token
      refine done.change.unrevoked (nodup_append.mp apart.sane.distinct).1 present (held.2 tokenHash token) ?_
      intro own
      have either := others other member tokenFamily own known
      rw [settled] at either
      exact either.elim nofun nofun

theorem apart_step (alone : Alone s action) (steps : step cfg s action = some next) : Apart next := by
  cases action with
  | login metadata request =>
    cases steps
    exact apart.started (onLogin_follows cfg metadata request)
  | refresh metadata request =>
    cases steps
    exact apart.started (onRefreshToken_follows cfg metadata request)
  | resume index fate => exact apart.resume alone steps
  | tick elapsed =>
    have sane := sane_step cfg s (.tick elapsed) next apart.sane steps
    cases steps
    refine ⟨sane,apart.unrelated,fun job member => ?_⟩
    exact (apart.ahead job member).mono fun _ ahead => ⟨ahead.1.tick elapsed,ahead.2⟩

theorem Apart.currently (steps : step cfg s action = some next) : Current s action := by
  cases action with
  | login | refresh | tick => trivial
  | resume index fate =>
    obtain ⟨job,job',command,resume,reply,stage,there,-,-,⟨here,current⟩,permitted,-,-⟩ :=
      Crew.tracked_resumed apart.ahead steps
    intro other same tokenHash exchanges
    cases there.symm.trans same
    exact current tokenHash (here.exchanging permitted exchanges)

end

/-- Refresh tokens are used once, and a family is dead after the use of a revoked token, exactly if no token is
exchanged that has been revoked meanwhile. Refreshes of a family one after the other are enough. -/
theorem refresh_single_use_iff (cfg : Config) (schedule : List Action) (final : System)
    (runs : run (step cfg) ⟨{},[]⟩ schedule = some final) :
    (Throughout (step cfg) (fun s => SingleUse s.shared) ⟨{},[]⟩ schedule ↔ Along (step cfg) Current ⟨{},[]⟩ schedule) ∧
    (Along (step cfg) Alone ⟨{},[]⟩ schedule → Throughout (step cfg) (fun s => SingleUse s.shared) ⟨{},[]⟩ schedule) := by
  have single : SingleUse ({} : Database) := ⟨nodup_nil,fun _ => Nat.zero_le _,nofun,nofun⟩
  have sane := along_invariant (step cfg) Sane (sane_step cfg) sane_start schedule
  constructor
  · refine throughout_iff Current (fun s _ => Sane s) (fun s => SingleUse s.shared) ?_ single sane runs
    intro s action next single sane steps
    exact singleUse_step single sane steps
  · intro alone
    have both : Throughout (step cfg) (fun s => SingleUse s.shared ∧ Apart s) ⟨{},[]⟩ schedule := by
      refine throughout_guarded _ ?_ ⟨single,⟨sane_start,.nil,nofun⟩⟩ alone
      intro s action next held alone steps
      have current := held.2.currently steps
      exact ⟨(singleUse_step held.1 held.2.sane steps).mpr current,apart_step held.2 alone steps⟩
    exact both.imp fun _ held => held.1

section Runs

def plainConfig : Config where
  sha256Hex := id
  decodeLogin := fun _ => none
  decodeLogout := fun _ => none
  decodeRefreshToken := fun _ => none
  encode := fun _ => []

def succeeding (token : Bytes) : (command : Command Table) → Reply command
  | .query sql _ =>
    if sql = "SELECT email FROM users WHERE id = $1" then .ok ⟨[[some (ascii "a@b.c")]]⟩
    else .ok ⟨[[some (decimal 7),some (ascii "hash"),none]]⟩
  | .queryAsync _ | .queryParamsAsync .. => .ok ⟨[]⟩
  | .execute .. => .ok 1
  | .acquireConnected | .produce .. => .ok ()
  | .markPoisoned | .release | .discard => ()
  | .redis .. => .ok ⟨.status,ascii "OK",0⟩
  | .verifyPassword .. => true
  | .createAccessToken .. => ascii "jwt"
  | .verifyAccessToken _ => .error .invalidMessage
  | .remainingTtl _ => (0 : Int)
  | .generateSecureToken => .ok token
  | .now => (0 : UInt64)

def goesOn (job count : Nat) (token : Bytes) (uuid : Bytes := []) : List Action :=
  List.replicate count (.resume job { answer := succeeding token, uuid })

def loggedIn : List Action :=
  .login {} ⟨some (ascii "a@b.c"),some (ascii "secret")⟩ :: (goesOn 0 5 (ascii "A") (ascii "F") ++ goesOn 0 4 [])

def presents (token : String) : Action := .refresh {} ⟨some (ascii token)⟩

def oneByOne : List Action :=
  loggedIn ++ presents "A" :: goesOn 1 15 (ascii "B") ++ presents "B" :: goesOn 2 15 (ascii "C") ++
    presents "A" :: goesOn 3 5 []

theorem refresh_single_use_one_by_one : ∃ final, run (step plainConfig) ⟨{},[]⟩ oneByOne = some final ∧
      final.shared.exchanges = [(ascii "A",ascii "B"),(ascii "B",ascii "C")] ∧ final.shared.answered = [ascii "F"] ∧
      Throughout (step plainConfig) (fun s => SingleUse s.shared) ⟨{},[]⟩ oneByOne := by
  obtain ⟨⟨final,runs,exchanges,answered⟩,alone⟩ : (∃ final, run (step plainConfig) ⟨{},[]⟩ oneByOne = some final ∧
      final.shared.exchanges = [(ascii "A",ascii "B"),(ascii "B",ascii "C")] ∧ final.shared.answered = [ascii "F"]) ∧
      Along (step plainConfig) Alone ⟨{},[]⟩ oneByOne := by decide +kernel
  refine ⟨final,runs,exchanges,answered,?_⟩
  exact (refresh_single_use_iff plainConfig oneByOne final runs).2 alone

def twiceAtOnce : List Action :=
  loggedIn ++ [presents "A",presents "A"] ++ goesOn 1 2 [] ++ goesOn 2 2 [] ++ goesOn 1 13 (ascii "B") ++
    goesOn 2 13 (ascii "C")

def reuseMeanwhile : List Action :=
  [presents "B",presents "A"] ++ goesOn 3 2 [] ++ goesOn 4 5 [] ++ goesOn 3 13 (ascii "D")

/-- A has two successors, both valid; and D is valid although the client was told that the family is
revoked. -/
theorem refresh_token_exchanged_twice : ∃ middle, run (step plainConfig) ⟨{},[]⟩ twiceAtOnce = some middle ∧
      middle.shared.exchanges = [(ascii "A",ascii "B"),(ascii "A",ascii "C")] ∧
      (valid middle.shared.tokens (ascii "F")).map Token.tokenHash = [ascii "B",ascii "C"] ∧
      ∃ final, run (step plainConfig) middle reuseMeanwhile = some final ∧ final.shared.answered = [ascii "F"] ∧
        (valid final.shared.tokens (ascii "F")).map Token.tokenHash = [ascii "D"] := by decide +kernel

end Runs

end ApexPipeline.RefreshTokens
