/-
The pages of the audit log, through the API and in the admin's view.  The log is
taken as it stands: nothing is recorded while one request is served.
-/
import Servcat.Model.Records
import Servcat.Model.Errors
import Servcat.Keyed.Table
import Servcat.Numeric.Paging
import Mathlib.Data.List.Sort

namespace Servcat

open Atomic Keyed Numeric

structure AuditLogEntry where
  id : Uuid
  actorUserId : Option Uuid
  action : String
  entityType : String
  entityId : Option String
  metadataJson : Option JsonValue
  createdAt : Timestamp
deriving Repr

/-- An InnoDB table takes up at most 64 TiB, so it has fewer than `2
^ 46` rows. -/
structure AuditLog where
  table : Table AuditLogEntry.id
  few : table.rows.length < 2 ^ 46

/-- `ORDER BY created_at DESC, id DESC`. -/
def AuditLogEntry.NotOlder (a b : AuditLogEntry) : Prop :=
  b.createdAt < a.createdAt ∨
    b.createdAt = a.createdAt ∧ b.id.bits.toNat ≤ a.id.bits.toNat

instance : DecidableRel AuditLogEntry.NotOlder := fun _ _ =>
  inferInstanceAs (Decidable (_ ∨ _))

namespace AuditLog

def newestFirst (log : AuditLog) : List AuditLogEntry :=
  log.table.rows.insertionSort AuditLogEntry.NotOlder

/-- `audit::count`. -/
def count (log : AuditLog) : Exit DbError Int :=
  .ok log.table.rows.length

/-- `audit::list`; the database refuses a negative limit or offset. -/
def list (build : Build) (log : AuditLog) (page pageSize : Int) :
    Exit DbError (List AuditLogEntry) := do
  let offset ← build.i64 (max page 0 * pageSize)
  if pageSize < 0 ∨ offset < 0 then .error .sqlx
  else return (log.newestFirst.drop offset.toNat).take pageSize.toNat

end AuditLog

def AuditLog.requireAdmin (role : Role) : Exit ApiError Unit :=
  if role = .admin then .ok () else .error .forbidden

namespace Routes

def defaultPageSize : Int := 50

def maxPageSize : Int := 200

structure AuditLogQuery where
  page : Option Int64
  pageSize : Option Int64
deriving Repr

structure AuditLogPage where
  entries : List AuditLogEntry
  page : Int
  pageSize : Int
  total : Int
deriving Repr

/-- The page asked for, counting from one. -/
def AuditLogQuery.pageOf (query : AuditLogQuery) : Int :=
  max (query.page.elim 1 Int64.toInt) 1

def AuditLogQuery.pageSizeOf (query : AuditLogQuery) : Int :=
  min (max (query.pageSize.elim defaultPageSize Int64.toInt) 1) maxPageSize

/-- `GET /api/audit-log`. -/
def listAuditLog (build : Build) (log : AuditLog) (role : Role)
    (query : AuditLogQuery) : Exit ApiError AuditLogPage := do
  AuditLog.requireAdmin role
  let page := query.pageOf
  let pageSize := query.pageSizeOf
  let total ← log.count.mapError .ofDb
  let zeroBased ← build.i64 (page - 1)
  let entries ← (log.list build zeroBased pageSize).mapError .ofDb
  return { entries, page, pageSize, total }

end Routes

namespace Web

def pageSize : Int := 50

/-- One row as the template renders it. -/
structure AuditRow where
  actorLabel : String
  action : String
  entityType : String
  entityId : Option String
  metadata : Option String
  createdAt : Timestamp
deriving Repr

structure AuditLogTemplate where
  rows : List AuditRow
  page : Int
  totalPages : Int
  hasPrev : Bool
  hasNext : Bool
  prevPage : Int
  nextPage : Int
deriving Repr

def actorLabel (users : Table User.id) : Option Uuid → String
  | some actorId =>
      ((users.find? actorId).map User.displayName).getD
        "(deactivated or removed user)"
  | none => "System"

/-- `jsonText` is the `Display` of a JSON value. -/
def auditRow (users : Table User.id) (jsonText : JsonValue → String)
    (entry : AuditLogEntry) : AuditRow where
  actorLabel := actorLabel users entry.actorUserId
  action := entry.action
  entityType := entry.entityType
  entityId := entry.entityId
  metadata := entry.metadataJson.map jsonText
  createdAt := entry.createdAt

/-- The page of the admin's view that is asked for, counting from one. -/
def pageOf (page : Option Int64) : Int :=
  max (page.elim 1 Int64.toInt) 1

/-- `GET /admin/audit-log`. -/
def listAuditLog (build : Build) (log : AuditLog) (users : Table User.id)
    (jsonText : JsonValue → String) (role : Role) (query : Option Int64) :
    Exit ApiError AuditLogTemplate := do
  AuditLog.requireAdmin role
  let page := pageOf query
  let total ← log.count.mapError .ofDb
  let zeroBased ← build.i64 (page - 1)
  let entries ← (log.list build zeroBased pageSize).mapError .ofDb
  let rows := entries.map (auditRow users jsonText)
  let padded ← build.i64 (max total 0 + pageSize)
  let padded ← build.i64 (padded - 1)
  let totalPages := max (padded.tdiv pageSize) 1
  let prevPage ← build.i64 (page - 1)
  let nextPage ← build.i64 (page + 1)
  return {
    rows, page, totalPages
    hasPrev := page > 1
    hasNext := page < totalPages
    prevPage, nextPage }

end Web

/-- In the log `a` comes before `b`. -/
def AuditLogEntry.Newer (a b : AuditLogEntry) : Prop :=
  b.createdAt < a.createdAt ∨
    b.createdAt = a.createdAt ∧ b.id.bits.toNat < a.id.bits.toNat

instance : IsTrans AuditLogEntry AuditLogEntry.NotOlder where
  trans a b c hab hbc := by
    rcases hab with hab | ⟨hab, hab'⟩
    · rcases hbc with hbc | ⟨hbc, -⟩
      · exact .inl (Int.lt_trans hbc hab)
      · exact .inl (hbc ▸ hab)
    · rcases hbc with hbc | ⟨hbc, hbc'⟩
      · exact .inl (hab ▸ hbc)
      · exact .inr ⟨hbc.trans hab, hbc'.trans hab'⟩

instance : Std.Total AuditLogEntry.NotOlder where
  total a b := by
    rcases Int.lt_trichotomy a.createdAt b.createdAt with hlt | heq | hgt
    · exact .inr (.inl hlt)
    · rcases Nat.le_total a.id.bits.toNat b.id.bits.toNat with hle | hle
      · exact .inr (.inr ⟨heq, hle⟩)
      · exact .inl (.inr ⟨heq.symm, hle⟩)
    · exact .inl (.inl hgt)

namespace AuditLog

variable (build : Build) (log : AuditLog)

theorem newestFirst_perm : log.newestFirst.Perm log.table.rows :=
  List.perm_insertionSort _ _

@[simp] theorem newestFirst_length :
    log.newestFirst.length = log.table.rows.length :=
  List.length_insertionSort _ _

/-- The order is strict, since no two entries have the same id. -/
theorem newestFirst_pairwise :
    log.newestFirst.Pairwise AuditLogEntry.Newer := by
  have hsorted : log.newestFirst.Pairwise AuditLogEntry.NotOlder :=
    List.pairwise_insertionSort _ _
  have hnodup : (log.newestFirst.map AuditLogEntry.id).Nodup :=
    ((log.newestFirst_perm.map _).nodup_iff).mpr log.table.nodup
  rw [List.Nodup, List.pairwise_map] at hnodup
  refine (hsorted.and hnodup).imp fun {a b} h => ?_
  have hne : b.id.bits.toNat ≠ a.id.bits.toNat := fun heq =>
    h.2 (congrArg Uuid.mk (BitVec.eq_of_toNat_eq heq)).symm
  unfold AuditLogEntry.Newer
  rcases h.1 with hlt | ⟨heq, hle⟩
  · exact .inl hlt
  · exact .inr ⟨heq, lt_of_le_of_ne hle hne⟩

variable {k size : Int}

theorem i64_offset_iff (hk : 0 ≤ k) (hsize : 0 ≤ size) :
    I64 (max k 0 * size) ↔ k * size < 2 ^ 63 := by
  have hnonneg : 0 ≤ k * size := Int.mul_nonneg hk hsize
  rw [max_eq_left hk, I64]
  omega

theorem list_ok (hk : 0 ≤ k) (hsize : 0 ≤ size) (h : k * size < 2 ^ 63) :
    log.list build k size = .ok (page log.newestFirst size.toNat k.toNat) := by
  rw [list, build.i64_of_fits ((i64_offset_iff hk hsize).mpr h), max_eq_left hk]
  have hnonneg : ¬ (size < 0 ∨ k * size < 0) :=
    not_or.mpr ⟨hsize.not_gt, (Int.mul_nonneg hk hsize).not_gt⟩
  simp only [Exit.ok_bind, hnonneg, ↓reduceIte, Int.toNat_mul hk hsize, page,
    Exit.pure_eq_ok]

theorem list_panics (hk : 0 ≤ k) (hsize : 0 ≤ size) (h : ¬ k * size < 2 ^ 63) :
    log.list .checked k size = .panicked := by
  rw [list, Build.i64_checked (mt (i64_offset_iff hk hsize).mp h)]
  rfl

end AuditLog

theorem Web.pageOf_bounds (query : Option Int64) :
    1 ≤ Web.pageOf query ∧ Web.pageOf query < 2 ^ 63 := by
  refine ⟨le_max_right _ _, max_lt ?_ (by decide)⟩
  cases query with
  | none => decide
  | some page => exact page.toInt_lt

namespace Routes

theorem pageSizeOf_bounds (query : AuditLogQuery) :
    1 ≤ query.pageSizeOf ∧ query.pageSizeOf ≤ 200 :=
  ⟨le_min (le_max_right _ _) (by decide), min_le_right _ _⟩

/-- What a page shows if nothing overflows. -/
def exactPage (log : AuditLog) (query : AuditLogQuery) : AuditLogPage where
  entries :=
    page log.newestFirst query.pageSizeOf.toNat (query.pageOf - 1).toNat
  page := query.pageOf
  pageSize := query.pageSizeOf
  total := log.table.rows.length

variable (build : Build) (log : AuditLog) (query : AuditLogQuery)

theorem listAuditLog_eq : listAuditLog build log .admin query =
    (((log.list build (query.pageOf - 1) query.pageSizeOf).mapError .ofDb) >>=
      fun entries => .ok { exactPage log query with entries }) := by
  have hpage := Web.pageOf_bounds query.page
  have hfits : I64 (query.pageOf - 1) := by
    change I64 (Web.pageOf query.page - 1)
    unfold I64
    omega
  simp only [listAuditLog, AuditLog.requireAdmin, ↓reduceIte, AuditLog.count,
    Exit.mapError, Exit.ok_bind, Build.i64_of_fits build hfits, Exit.pure_eq_ok,
    exactPage]

/-- Nothing overflows exactly when the offset does not. -/
theorem listAuditLog_exact_iff :
    (∀ build, listAuditLog build log .admin query = .ok (exactPage log query)) ↔
      (query.pageOf - 1) * query.pageSizeOf < 2 ^ 63 := by
  have hpage : 0 ≤ query.pageOf - 1 :=
    Int.sub_nonneg_of_le (Web.pageOf_bounds query.page).1
  have hsize : 0 ≤ query.pageSizeOf := by
    have hbounds := pageSizeOf_bounds query
    omega
  constructor
  · intro h
    by_contra hlarge
    have hchecked := h .checked
    rw [listAuditLog_eq, log.list_panics hpage hsize hlarge] at hchecked
    cases hchecked
  · intro h build
    rw [listAuditLog_eq, log.list_ok build hpage hsize h]
    rfl

end Routes

namespace Web

/-- What the admin's view shows if nothing overflows. -/
def exactView (log : AuditLog) (users : Table User.id)
    (jsonText : JsonValue → String) (query : Option Int64) : AuditLogTemplate :=
  let totalPages : Int := (max 1 (log.table.rows.length ⌈/⌉ 50) : ℕ)
  { rows := (page log.newestFirst 50 (pageOf query - 1).toNat).map
      (auditRow users jsonText)
    page := pageOf query
    totalPages
    hasPrev := pageOf query > 1
    hasNext := pageOf query < totalPages
    prevPage := pageOf query - 1
    nextPage := pageOf query + 1 }

variable (build : Build) (log : AuditLog) (users : Table User.id)
  (jsonText : JsonValue → String) (query : Option Int64)

/-- The rounded-up division of the code. -/
theorem totalPages_eq (total : ℕ) :
    max (((max (total : Int) 0 + pageSize) - 1).tdiv pageSize) 1 =
      ((max 1 (total ⌈/⌉ 50) : ℕ) : Int) := by
  have hnonneg : 0 ≤ max (total : Int) 0 + pageSize - 1 := by
    unfold pageSize
    omega
  rw [Int.tdiv_eq_ediv_of_nonneg hnonneg, Nat.ceilDiv_eq_add_pred_div, pageSize]
  omega

theorem listAuditLog_eq : listAuditLog build log users jsonText .admin query =
    (((log.list build (pageOf query - 1) 50).mapError .ofDb) >>= fun entries =>
      build.i64 (pageOf query + 1) >>= fun nextPage =>
        .ok { exactView log users jsonText query with
          rows := entries.map (auditRow users jsonText)
          nextPage }) := by
  have hpage := pageOf_bounds query
  have hfew := log.few
  have hfits : I64 (pageOf query - 1) := by
    unfold I64
    omega
  have hpadded : I64 (max (log.table.rows.length : Int) 0 + pageSize) := by
    unfold I64 pageSize
    omega
  have hpadded' : I64 (max (log.table.rows.length : Int) 0 + pageSize - 1) := by
    unfold I64 pageSize
    omega
  simp only [listAuditLog, AuditLog.requireAdmin, ↓reduceIte, AuditLog.count,
    Exit.mapError, Exit.ok_bind, Build.i64_of_fits build hfits,
    Build.i64_of_fits build hpadded, Build.i64_of_fits build hpadded',
    totalPages_eq, Exit.pure_eq_ok]
  rfl

/-- Nothing overflows exactly when the offset does not. -/
theorem listAuditLog_exact_iff :
    (∀ build, listAuditLog build log users jsonText .admin query =
      .ok (exactView log users jsonText query)) ↔
        (pageOf query - 1) * 50 < 2 ^ 63 := by
  have hpage : 0 ≤ pageOf query - 1 :=
    Int.sub_nonneg_of_le (pageOf_bounds query).1
  constructor
  · intro h
    by_contra hlarge
    have hchecked := h .checked
    rw [listAuditLog_eq, log.list_panics hpage (by decide) hlarge] at hchecked
    cases hchecked
  · intro h build
    have hnext : I64 (pageOf query + 1) := by
      unfold I64
      omega
    rw [listAuditLog_eq, log.list_ok build hpage (by decide) h,
      Build.i64_of_fits build hnext]
    rfl

end Web

/-- Both ways of paging show what exact arithmetic gives, in either kind of
build, exactly on the pages whose offset fits. -/
theorem audit_paging_exact_iff (log : AuditLog) (users : Table User.id)
    (jsonText : JsonValue → String) (query : Routes.AuditLogQuery) :
    ((∀ build, Routes.listAuditLog build log .admin query =
        .ok (Routes.exactPage log query)) ↔
      (query.pageOf - 1) * query.pageSizeOf < 2 ^ 63) ∧
    ((∀ build, Web.listAuditLog build log users jsonText .admin query.page =
        .ok (Web.exactView log users jsonText query.page)) ↔
      (Web.pageOf query.page - 1) * 50 < 2 ^ 63) :=
  ⟨Routes.listAuditLog_exact_iff log query,
    Web.listAuditLog_exact_iff log users jsonText query.page⟩

/-- A log with one entry. -/
def Sample.auditLog : AuditLog where
  table :=
    ⟨[⟨⟨7⟩, none, "login", "user", none, none, 0⟩], by decide⟩
  few := by decide

/-- A page far beyond the end shows the first page again where arithmetic
wraps, and panics where it is checked; the database refuses the offset of the
very last page. -/
theorem audit_paging_overflows :
    ((Routes.listAuditLog .wrapping Sample.auditLog .admin
        ⟨some 288230376151711745, some 64⟩).map fun shown =>
          (shown.page, shown.entries.map AuditLogEntry.id)) =
      .ok (288230376151711745, [⟨7⟩]) ∧
    ((Routes.listAuditLog .checked Sample.auditLog .admin
        ⟨some 288230376151711745, some 64⟩).map Routes.AuditLogPage.page) =
          .panicked ∧
    ((Web.listAuditLog .wrapping Sample.auditLog .empty (fun _ => "") .admin
        (some Int64.maxValue)).map Web.AuditLogTemplate.page) =
          .error .internal := by
  refine ⟨?_, ?_, ?_⟩ <;> decide +kernel

/-- Every entry is shown exactly once, newest first, on the pages from the first
to the rounded-up number of them, and nothing on later ones. -/
structure AuditLog.Paged (log : AuditLog) (size : ℕ) {α : Type}
    (row : AuditLogEntry → α)
    (shown : Int64 → Exit ApiError (List α)) : Prop where
  complete : ∃ pages : ℕ → List α,
    (∀ n, 1 ≤ n → n ≤ log.table.rows.length ⌈/⌉ size →
      shown (Int64.ofNat n) = .ok (pages n)) ∧
    (List.range' 1 (log.table.rows.length ⌈/⌉ size)).flatMap pages =
      log.newestFirst.map row
  beyond : ∀ p : Int64, ((log.table.rows.length ⌈/⌉ size : ℕ) : Int) < p.toInt →
    (p.toInt - 1) * size < 2 ^ 63 → shown p = .ok []

theorem AuditLog.ceilDiv_lt (log : AuditLog) {size : ℕ} (hsize : 0 < size) :
    log.table.rows.length ⌈/⌉ size < 2 ^ 46 := by
  refine lt_of_le_of_lt ?_ log.few
  rw [ceilDiv_le_iff_le_smul hsize, smul_eq_mul]
  exact Nat.le_mul_of_pos_left _ hsize

theorem AuditLog.Paged.of_shown {log : AuditLog} {size : ℕ} {α : Type}
    {row : AuditLogEntry → α} {shown : Int64 → Exit ApiError (List α)}
    (hpos : 0 < size)
    (hmax : size ≤ 200)
    (h : ∀ p : Int64, (Web.pageOf (some p) - 1) * size < 2 ^ 63 → shown p =
      .ok
        ((page log.newestFirst size (Web.pageOf (some p) - 1).toNat).map row)) :
    log.Paged size row shown where
  complete := by
    refine ⟨fun n => (page log.newestFirst size (n - 1)).map row,
      fun n hn hle => ?_, ?_⟩
    · have hlt := log.ceilDiv_lt hpos
      have hn' : (Int64.ofNat n).toInt = n := Int64.toInt_ofNat_of_lt (by omega)
      have hpage : Web.pageOf (some (Int64.ofNat n)) = n := by
        simp only [Web.pageOf, Option.elim_some, hn']
        omega
      have hprod : (n - 1) * size ≤ 2 ^ 46 * 200 :=
        Nat.mul_le_mul (by omega) hmax
      have hcast : ((n : Int) - 1) * size = ((n - 1) * size : ℕ) := by
        push_cast [Nat.cast_sub hn]
        rfl
      rw [h _ (by rw [hpage, hcast]; omega), hpage]
      congr
      omega
    · have hrange :=
        congrArg (List.map row) (pages_eq log.newestFirst size hpos)
      rw [List.map_flatMap, log.newestFirst_length] at hrange
      rw [List.range'_eq_map_range, List.flatMap_map, ← hrange]
      simp
  beyond p hlt hfits := by
    have hpage : Web.pageOf (some p) = p.toInt := by
      simp only [Web.pageOf, Option.elim_some]
      omega
    rw [h p (by rw [hpage]; exact hfits), hpage]
    rw [(page_eq_nil_iff _ _ hpos _).mpr]
    · rfl
    · rw [log.newestFirst_length]
      omega

section Partition

variable (build : Build) (log : AuditLog) (users : Table User.id)
  (jsonText : JsonValue → String)

theorem Routes.listAuditLog_paged (pageSize : Option Int64) :
    log.Paged (AuditLogQuery.pageSizeOf ⟨none, pageSize⟩).toNat id fun p =>
      (listAuditLog build log .admin ⟨some p, pageSize⟩).map
        AuditLogPage.entries := by
  have hsize := pageSizeOf_bounds ⟨none, pageSize⟩
  refine .of_shown (by omega) (by omega) fun p hfits => ?_
  rw [Int.toNat_of_nonneg (by omega)] at hfits
  rw [(listAuditLog_exact_iff log ⟨some p, pageSize⟩).mpr hfits build,
    List.map_id]
  rfl

theorem Web.listAuditLog_paged : log.Paged 50 (auditRow users jsonText) fun p =>
    (listAuditLog build log users jsonText .admin (some p)).map
      AuditLogTemplate.rows := by
  refine .of_shown (by decide) (by decide) fun p hfits => ?_
  rw [(listAuditLog_exact_iff log users jsonText (some p)).mpr hfits build]
  rfl

/-- The links of the admin's view lead to the pages there are. -/
theorem Web.listAuditLog_links (query : Option Int64)
    (hfits : (pageOf query - 1) * 50 < 2 ^ 63) :
    ∃ view, listAuditLog build log users jsonText .admin query = .ok view ∧
      view.totalPages = (max 1 (log.table.rows.length ⌈/⌉ 50) : ℕ) ∧
      (view.hasPrev = true ↔ 1 < pageOf query) ∧
      (pageOf query ≤ view.totalPages → (view.hasNext = true ↔ ∃ rows,
        (listAuditLog build log users jsonText .admin
          (some (Int64.ofInt view.nextPage))).map AuditLogTemplate.rows =
            .ok rows ∧
          rows ≠ [])) := by
  have hpage := pageOf_bounds query
  have hfew := log.ceilDiv_lt (by decide : 0 < 50)
  refine ⟨_, (listAuditLog_exact_iff log users jsonText query).mpr hfits build,
    rfl, ?_, ?_⟩
  · simp [exactView]
  · intro hle
    have hnext : Int64.toInt (Int64.ofInt (pageOf query + 1)) =
        pageOf query + 1 :=
      Int64.toInt_ofInt_of_le (by omega)
        (by simp only [exactView] at hle; omega)
    have hpage' : pageOf (some (Int64.ofInt (pageOf query + 1))) =
        pageOf query + 1 := by
      rw [pageOf, Option.elim_some, hnext]
      omega
    have hshown := (listAuditLog_exact_iff log users jsonText
      (some (Int64.ofInt (pageOf query + 1)))).mpr
        (by rw [hpage']; simp only [exactView] at hle; omega) build
    change _ ↔ ∃ rows, (listAuditLog build log users jsonText .admin
      (some (Int64.ofInt (pageOf query + 1)))).map
        AuditLogTemplate.rows = .ok rows ∧ _
    rw [hshown]
    have hrows : (exactView log users jsonText
        (some (Int64.ofInt (pageOf query + 1)))).rows = [] ↔
        log.table.rows.length ⌈/⌉ 50 ≤ (pageOf query).toNat := by
      simp only [exactView, hpage', List.map_eq_nil_iff, Int.add_sub_cancel]
      rw [page_eq_nil_iff _ _ (by decide), log.newestFirst_length]
    constructor
    · intro hlt
      refine ⟨_, rfl, fun hnil => ?_⟩
      have hlast := hrows.mp hnil
      simp only [exactView, decide_eq_true_eq] at hlt
      omega
    · rintro ⟨rows, heq, hne⟩
      have hmore : ¬ _ :=
        fun hlast => hne ((Exit.ok.inj heq).symm.trans (hrows.mpr hlast))
      simp only [exactView, decide_eq_true_eq]
      omega

/-- Pages one, two and so on up to the last show the whole log, newest entry
first, and every entry once; the admin's view links to its neighbours exactly
where there are any. -/
theorem audit_pages_partition :
    log.newestFirst.Perm log.table.rows ∧
      log.newestFirst.Pairwise AuditLogEntry.Newer ∧
      (∀ pageSize,
        log.Paged (Routes.AuditLogQuery.pageSizeOf ⟨none, pageSize⟩).toNat id
        fun p => (Routes.listAuditLog build log .admin ⟨some p, pageSize⟩).map
          Routes.AuditLogPage.entries) ∧
      (log.Paged 50 (Web.auditRow users jsonText) fun p =>
        (Web.listAuditLog build log users jsonText .admin (some p)).map
          Web.AuditLogTemplate.rows) ∧
      ∀ query, (Web.pageOf query - 1) * 50 < 2 ^ 63 →
        ∃ view,
          Web.listAuditLog build log users jsonText .admin query = .ok view ∧
          view.totalPages = (max 1 (log.table.rows.length ⌈/⌉ 50) : ℕ) ∧
          (view.hasPrev = true ↔ 1 < Web.pageOf query) ∧
          (Web.pageOf query ≤ view.totalPages → (view.hasNext = true ↔ ∃ rows,
            (Web.listAuditLog build log users jsonText .admin
              (some (Int64.ofInt view.nextPage))).map
                Web.AuditLogTemplate.rows = .ok rows ∧ rows ≠ [])) :=
  ⟨log.newestFirst_perm, log.newestFirst_pairwise,
    Routes.listAuditLog_paged build log,
    Web.listAuditLog_paged build log users jsonText,
    Web.listAuditLog_links build log users jsonText⟩

end Partition

end Servcat
