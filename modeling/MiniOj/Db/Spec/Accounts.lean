import Mathlib.Data.List.Nodup
import MiniOj.Db.Accounts
import MiniOj.Db.Spec.Schema

/-!
# What the statements on users and sessions do

* `Keyed`, `Linked` — the constraints of the tables `users` and `sessions`
* `insertUser_spec`, `insertSession_spec`, `sessionUser_iff`
-/

namespace MiniOj.Db

open Infra

namespace AccountTables

variable {weight : Bytes → Bytes} {now : Nat} {a a' : AccountTables}

/-- The users with role `admin`. -/
def admins (a : AccountTables) : List UserRow := a.users.filter fun u => u.role == .admin

theorem mem_admins {u : UserRow} : u ∈ a.admins ↔ u ∈ a.users ∧ u.role = .admin := by
  rw [admins, List.mem_filter, beq_iff_eq]

/-- User ids are different, and the next one is new. -/
structure Keyed (a : AccountTables) : Prop where
  ids : (a.users.map UserRow.id).Nodup
  next : ∀ u ∈ a.users, u.id < a.nextUser

/-- Session ids are different, and every session has its user. -/
structure Linked (a : AccountTables) : Prop where
  ids : (a.sessions.map SessionRow.id).Nodup
  user : ∀ r ∈ a.sessions, ∃ u ∈ a.users, u.id = r.userId

theorem Keyed.eq_of_id (h : a.Keyed) {u v : UserRow} (hu : u ∈ a.users) (hv : v ∈ a.users)
    (heq : u.id = v.id) : u = v := List.inj_on_of_nodup_map h.ids hu hv heq

theorem Linked.eq_of_id (h : a.Linked) {r s : SessionRow} (hr : r ∈ a.sessions)
    (hs : s ∈ a.sessions) (heq : r.id = s.id) : r = s := List.inj_on_of_nodup_map h.ids hr hs heq

/-! ## Users -/

/-- The row of a user that was inserted. -/
theorem insertUser_row {username passwordHash : Bytes} {role : Role} {id : Nat}
    (h : a.insertUser weight now username passwordHash role = .ok (id, a')) :
    id = a.nextUser ∧ ∃ row : UserRow, row.id = id ∧ row.role = role ∧
      fitVarchar 20 username = some row.username ∧
      a' = { a with users := a.users ++ [row], nextUser := a.nextUser + 1 } := by
  unfold insertUser at h
  split at h
  · next u p hu hp =>
    split at h
    · cases h
    · split at h
      · cases h
      · cases h
        exact ⟨rfl, _, rfl, rfl, hu, rfl⟩
  · cases h

theorem insertUser_spec {username passwordHash : Bytes} {role : Role} {id : Nat}
    (h : a.insertUser weight now username passwordHash role = .ok (id, a')) :
    id = a.nextUser ∧ ∃ row : UserRow, row.id = id ∧ row.role = role ∧
      a' = { a with users := a.users ++ [row], nextUser := a.nextUser + 1 } := by
  obtain ⟨hid, row, hrow, hrole, -, ha⟩ := insertUser_row h
  exact ⟨hid, row, hrow, hrole, ha⟩

/-- Inserting a user keeps the ids different. -/
theorem Keyed.insertUser (hk : a.Keyed) {username passwordHash : Bytes} {role : Role} {id : Nat}
    (h : a.insertUser weight now username passwordHash role = .ok (id, a')) : a'.Keyed := by
  obtain ⟨hid, row, hrow, -, rfl⟩ := insertUser_spec h
  refine ⟨nodup_map_push hk.ids fun u hu => ?_, fun u hu => ?_⟩
  · rw [hrow, hid]
    exact Nat.ne_of_lt (hk.next u hu)
  · rcases List.mem_append.mp hu with hu | hu
    · exact Nat.lt_succ_of_lt (hk.next u hu)
    · rw [List.mem_singleton.mp hu, hrow, hid]
      exact Nat.lt_succ_self _

/-- A user who is found has the name, up to the collation. -/
theorem userByName_spec {username : Bytes} {u : UserRow}
    (h : a.userByName weight username = some u) :
    u ∈ a.users ∧ weight u.username = weight username := by
  have hequal := List.find?_some h
  exact ⟨List.mem_of_find?_eq_some h, eq_of_beq hequal⟩

/-! ## Sessions -/

/-- A session is inserted for a user there is, under a new id. -/
theorem insertSession_spec {id : Bytes} {userId expiresAt : Nat} {u : Unit}
    (h : a.insertSession now id userId expiresAt = .ok (u, a')) :
    (∀ r ∈ a.sessions, r.id ≠ id) ∧ (∃ v ∈ a.users, v.id = userId) ∧
      a' = { a with sessions := a.sessions ++ [⟨id, userId, expiresAt, now⟩] } := by
  unfold insertSession at h
  split at h
  · cases h
  · split at h
    · cases h
    · next hnew =>
      split at h
      · next huser =>
        cases h
        obtain ⟨v, hv, hid⟩ := List.any_eq_true.mp huser
        refine ⟨fun r hr heq => hnew ?_, ⟨v, hv, eq_of_beq hid⟩, rfl⟩
        exact List.any_eq_true.mpr ⟨r, hr, beq_iff_eq.mpr heq⟩
      · cases h

theorem Linked.insertSession (hl : a.Linked) {id : Bytes} {userId expiresAt : Nat} {u : Unit}
    (h : a.insertSession now id userId expiresAt = .ok (u, a')) : a'.Linked := by
  obtain ⟨hnew, huser, rfl⟩ := insertSession_spec h
  refine ⟨nodup_map_push hl.ids hnew, fun r hr => ?_⟩
  rcases List.mem_append.mp hr with hr | hr
  · exact hl.user r hr
  · rw [List.mem_singleton.mp hr]
    exact huser

/-- A deleted session leaves the others as they are. -/
theorem Linked.deleteSession (hl : a.Linked) (id : Bytes) : (a.deleteSession id).2.Linked :=
  ⟨hl.ids.sublist (List.filter_sublist.map _), fun r hr => hl.user r (List.mem_of_mem_filter hr)⟩

/-- A deleted session is no other. -/
theorem sessionUser_deleteSession {id id' : Bytes} (hne : id' ≠ id) (utc : Nat) :
    (a.deleteSession id').2.sessionUser id utc = a.sessionUser id utc := by
  have hrows : ((a.deleteSession id').2.sessions.filter fun r => r.id == id && utc < r.expiresAt) =
      a.sessions.filter fun r => r.id == id && utc < r.expiresAt := by
    refine List.filter_filter.trans (List.filter_congr fun r _ => ?_)
    rw [Bool.and_eq_left_iff_imp, Bool.and_eq_true, beq_iff_eq, bne_iff_ne]
    rintro ⟨rfl, -⟩
    exact hne.symm
  unfold sessionUser
  rw [hrows]
  rfl

/-- A deleted session has no user. -/
theorem sessionUser_deleted (id : Bytes) (utc : Nat) :
    (a.deleteSession id).2.sessionUser id utc = none := by
  have hrows : ((a.deleteSession id).2.sessions.filter fun r => r.id == id && utc < r.expiresAt) =
      [] := by
    refine List.filter_eq_nil_iff.mpr fun r hr hcond => ?_
    rw [Bool.and_eq_true] at hcond
    exact bne_iff_ne.mp (List.mem_filter.mp hr).2 (eq_of_beq hcond.1)
  unfold sessionUser
  rw [hrows]
  rfl

/-- The user of a session that has not expired. -/
theorem mem_sessionUser {id : Bytes} {utc : Nat} {u : UserRow}
    (h : a.sessionUser id utc = some u) :
    u ∈ a.users ∧ ∃ r ∈ a.sessions, r.id = id ∧ utc < r.expiresAt ∧ r.userId = u.id := by
  obtain ⟨r, hr, hu⟩ := List.mem_flatMap.mp (List.mem_of_head? h)
  obtain ⟨hr, hcond⟩ := List.mem_filter.mp ((List.perm_insertionSort _ _).mem_iff.mp hr)
  rw [Bool.and_eq_true, beq_iff_eq, decide_eq_true_iff] at hcond
  obtain ⟨hu, hid⟩ := List.mem_filter.mp hu
  exact ⟨hu, r, hr, hcond.1, hcond.2, (eq_of_beq hid).symm⟩

/-- **Which user a session id stands for.** -/
theorem sessionUser_iff (hl : a.Linked) {id : Bytes} {utc userId : Nat} :
    (a.sessionUser id utc).map UserRow.id = some userId ↔
      ∃ r ∈ a.sessions, r.id = id ∧ utc < r.expiresAt ∧ r.userId = userId := by
  constructor
  · intro h
    obtain ⟨u, hu, rfl⟩ := Option.map_eq_some_iff.mp h
    exact (mem_sessionUser hu).2
  · rintro ⟨r, hr, rfl, hutc, rfl⟩
    obtain ⟨v, hv, hvid⟩ := hl.user r hr
    cases hs : a.sessionUser r.id utc with
    | none =>
      -- the user of `r` is in the list
      have hnil := List.head?_eq_none_iff.mp hs
      have hmem : v ∈ ((a.sessions.filter fun s => s.id == r.id && utc < s.expiresAt).insertionSort
          fun s s' => s'.expiresAt ≤ s.expiresAt).flatMap fun s =>
            a.users.filter fun u => u.id == s.userId := by
        refine List.mem_flatMap.mpr ⟨r, ?_, List.mem_filter.mpr ⟨hv, beq_iff_eq.mpr hvid⟩⟩
        refine (List.perm_insertionSort _ _).mem_iff.mpr (List.mem_filter.mpr ⟨hr, ?_⟩)
        rw [Bool.and_eq_true, beq_iff_eq, decide_eq_true_iff]
        exact ⟨rfl, hutc⟩
      rw [hnil] at hmem
      cases hmem
    | some u =>
      obtain ⟨-, s, hmem, hid, -, huser⟩ := mem_sessionUser hs
      rw [hl.eq_of_id hmem hr hid] at huser
      rw [Option.map_some, huser]

end AccountTables

end MiniOj.Db
