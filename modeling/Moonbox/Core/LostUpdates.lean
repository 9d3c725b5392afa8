import Moonbox.Core.UserChanges
import Moonbox.Catalog.Operations
import Moonbox.Lib.ReadModifyWrite
import Moonbox.Lib.Sessions

/-!
# Updates of one user by two sessions

Two commands that alter the same user each read his row in one statement and write it in another.
-/

namespace Moonbox.Core

open Catalog Relational

/-! ### The row of a user -/

/-- The row that a change of the user makes of the row it has read. -/
def changedRow (org createBy : String) (change : CatalogUser → CatalogUser) (caller : User)
    (now : Nat) (e : UserEntity) : UserEntity :=
  .altered e (change (toCatalogUser org createBy e)) caller now

/-- The columns of the row that no change of the user writes. -/
structure SameUser (u r : UserEntity) : Prop where
  id : r.id = u.id
  organizationId : r.organizationId = u.organizationId
  name : r.name = u.name
  createBy : r.createBy = u.createBy
  createTime : r.createTime = u.createTime

/-- The store with another row in the place of `u`. -/
def withRow (s : Store) (u r : UserEntity) : Store :=
  (Write.update (E := Entity) .users (fun t => t.id == u.id) fun _ => r).exec s

section WithRow

variable {s : Store} {u r r' : UserEntity}

lemma withId_id (h : SameUser u r) : Row.withId (Row.id u) r = r := by
  cases r
  cases h.id
  rfl

lemma withRow_rows (hu : u ∈ (s .users).rows) (h : SameUser u r) {p : UserEntity → Bool}
    (hp : p r = p u) :
    (withRow s u r .users).rows.find? p =
      ((s .users).rows.find? p).map fun t => if t.id == u.id then r else t := by
  rw [withRow, exec_update, Table.find?_update]
  · congr 1
    funext t
    split
    · rename_i hid
      have ht : Row.id t = Row.id u := beq_iff_eq.mp hid
      rw [ht]
      exact withId_id h
    · rfl
  · intro t ht hid
    rw [(s .users).eq_of_id ht hu (beq_iff_eq.mp hid), withId_id h]
    exact hp

lemma withRow_of_ne {k : Kind} (hk : k ≠ .users) : withRow s u r k = s k :=
  exec_update_of_ne (E := Entity) _ _ hk

lemma withRow_self (hu : u ∈ (s .users).rows) : withRow s u u = s := by
  funext k
  by_cases hk : k = .users
  · subst hk
    apply Table.eq_of_rows
    · rw [withRow, exec_update]
      conv_rhs => rw [← List.map_id (s .users).rows]
      apply List.map_congr_left
      intro t ht
      show (if t.id == u.id then _ else t) = t
      split
      · rename_i hid
        have htu : t = u := (s .users).eq_of_id ht hu (beq_iff_eq.mp hid)
        rw [htu]
        rfl
      · rfl
    · rw [withRow, exec_update]
      rfl
  · exact withRow_of_ne hk

/-- The second of two changes of a row is the one that counts. -/
lemma withRow_withRow (hr : r.id = u.id) : withRow (withRow s u r) r r' = withRow s u r' := by
  funext k
  by_cases hk : k = .users
  · subst hk
    apply Table.eq_of_rows
    · simp only [withRow, exec_update, hr]
      show ((s .users).rows.map _).map _ = (s .users).rows.map _
      rw [List.map_map]
      apply List.map_congr_left
      intro t _
      simp only [Function.comp]
      by_cases ht : t.id = u.id
      · have hrow : Row.id t = t.id := rfl
        simp only [ht, hrow, Row.withId, beq_self_eq_true, if_true]
        rfl
      · simp [ht]
    · simp only [withRow, exec_update]
      rfl
  · rw [withRow_of_ne hk, withRow_of_ne hk, withRow_of_ne hk]

lemma withRow_congr {v : UserEntity} (h : v.id = u.id) : withRow s v r = withRow s u r := by
  rw [withRow, withRow, h]

lemma withRow_inj (hu : u ∈ (s .users).rows) (h : SameUser u r) (h' : SameUser u r') :
    withRow s u r = withRow s u r' ↔ r = r' := by
  constructor
  · intro heq
    let p : UserEntity → Bool := fun t => t.id == u.id
    have hself : (s .users).rows.find? p = some u := Table.find?_id hu
    have hfind := congrArg (fun s : Store => (s .users).rows.find? p) heq
    rw [withRow_rows hu h (congrArg (· == u.id) h.id),
      withRow_rows hu h' (congrArg (· == u.id) h'.id), hself] at hfind
    simpa using hfind
  · intro heq
    rw [heq]

end WithRow

/-! ### The statements of a command -/

section Stages

variable [Names]

/-- The user of the command: in his organization, under his name, and his creator's name. -/
structure FindsUser (s : Store) (org user : String) (o : OrganizationEntity) (u : UserEntity)
    (createBy : String) : Prop where
  inOrg : Store.organization s org = some o
  found : Store.user s o.id user = some u
  creator : creatorName s u.createBy = some createBy

variable {s : Store} {org user createBy : String} {o : OrganizationEntity} {u r : UserEntity}

lemma FindsUser.mem (h : FindsUser s org user o u createBy) : u ∈ (s .users).rows :=
  (Store.user_some h.found).1

/-- A user is found under the name his row has. -/
lemma FindsUser.ownName (h : FindsUser s org user o u createBy) :
    FindsUser s org u.name o u createBy where
  inOrg := h.inOrg
  found := by
    have hname := sameName_iff.mp (Store.user_some h.found).2.2
    rw [← h.found]
    simp only [Store.user, sameName, hname]
  creator := h.creator

lemma FindsUser.withRow (h : FindsUser s org user o u createBy) (hr : SameUser u r) :
    FindsUser (withRow s u r) org user o r createBy where
  inOrg := by
    rw [← h.inOrg]
    exact congrArg (fun t : Table OrganizationEntity => t.rows.find? _)
      (withRow_of_ne (s := s) (k := .organizations) (by decide))
  found := by
    have hp : (r.organizationId == o.id && sameName r.name user) =
        (u.organizationId == o.id && sameName u.name user) := by rw [hr.organizationId, hr.name]
    have hfind := withRow_rows h.mem hr (p := fun t => t.organizationId == o.id &&
      sameName t.name user) hp
    have hfound : (s .users).rows.find? (fun t => t.organizationId == o.id &&
      sameName t.name user) = some u := h.found
    rw [hfound] at hfind
    simpa [Store.user] using hfind
  creator := by
    rw [hr.createBy, ← h.creator]
    unfold creatorName
    split
    · rfl
    · rw [withRow_rows h.mem hr (congrArg (fun n : Nat => (n : Int) == u.createBy) hr.id)]
      cases hf : (s .users).rows.find? fun t => (t.id : Int) == u.createBy with
      | none => rfl
      | some t =>
        simp only [Option.map_some]
        split
        · rename_i hid
          have htu := (s .users).eq_of_id (List.mem_of_find?_eq_some hf) h.mem (beq_iff_eq.mp hid)
          rw [hr.name, htu]
        · rfl

variable {change : CatalogUser → CatalogUser} {caller : User} {now : Nat}

omit [Names] in
lemma SameUser.rfl : SameUser u u := ⟨by rfl, by rfl, by rfl, by rfl, by rfl⟩

omit [Names] in
/-- The change keeps the columns that it must not write. -/
lemma SameUser.changedRow {touched : List UserField} (ht : Touches touched change)
    (h : SameUser u r) : SameUser u (changedRow org createBy change caller now r) where
  id := h.id
  organizationId := h.organizationId
  name := (ht.name _).trans h.name
  createBy := h.createBy
  createTime := h.createTime

/-- How many statements the command runs. The name of the creator is not looked up for a user
that the system has created. -/
def steps (u : UserEntity) : Nat := if u.createBy = -1 then 5 else 6

/-- The action has `rem` of its `n` statements left and holds the row `r`. Only the last writes,
and the second reads the row. -/
def Remains (s : Store) (u : UserEntity) (f : UserEntity → UserEntity) (n : Nat) :
    Nat → UserEntity → DBIO Unit → Prop
  | 0, _, m => m = pure ()
  | rem + 1, r, m => ∃ writes next, m = .step writes next ∧ ∀ c, SameUser u c →
      execAll (writes (withRow s u c)) (withRow s u c) =
        withRow s u (if rem = 0 then f r else c) ∧
      Remains s u f n rem (if rem + 2 = n then c else r) (next (withRow s u c))

variable {n : Nat}

omit [Names] in
/-- What the write needs of the row it finds is the same in the one held. -/
lemma remains_updateUser {e : UserEntity} (hr : SameUser u r) (he : SameUser u e) :
    Remains s u (changedRow org createBy change caller now) n 1 r
      (JdbcDao.updateUser (.altered e (change (toCatalogUser org createBy r)) caller now)) := by
  have hrow : UserEntity.altered e (change (toCatalogUser org createBy r)) caller now =
      changedRow org createBy change caller now r := by
    simp only [changedRow, UserEntity.altered, he.id, hr.id, he.organizationId, hr.organizationId,
      he.createBy, hr.createBy, he.createTime, hr.createTime]
  rw [hrow]
  refine ⟨_, _, rfl, fun c hc => ⟨?_, rfl⟩⟩
  have hid : (changedRow org createBy change caller now r).id = c.id := hr.id.trans hc.id.symm
  show withRow (withRow s u c) (changedRow org createBy change caller now r) _ = _
  rw [withRow_congr hid, withRow_withRow hc.id]
  rfl

omit [Names] in
/-- A statement that only reads, and not the row. -/
lemma remains_step {m : DBIO Unit} {next : Store → DBIO Unit} {rem : Nat}
    {f : UserEntity → UserEntity} (hm : m = .step (fun _ => []) next) (h0 : rem ≠ 0)
    (hn : rem + 2 ≠ n) (hnext : ∀ c, SameUser u c → Remains s u f n rem r (next (withRow s u c))) :
    Remains s u f n (rem + 1) r m := by
  refine ⟨_, next, hm, fun c hc => ?_⟩
  rw [if_neg h0, if_neg hn]
  exact ⟨rfl, hnext c hc⟩

lemma remains_alterUser {touched : List UserField} (ht : Touches touched change)
    (h : FindsUser s org user o u createBy) (hr : SameUser u r) (hn : 4 < n) :
    Remains s u (changedRow org createBy change caller now) n 3 r
      (JdbcCatalog.alterUser (change (toCatalogUser org createBy r)) caller now) := by
  apply remains_step rfl (by decide) (by omega)
  intro c hc
  have hc' := h.withRow hc
  have hdorg : (change (toCatalogUser org createBy r)).org = org := ht.org _
  have hdname : (change (toCatalogUser org createBy r)).name = u.name := (ht.name _).trans hr.name
  have horg : ((withRow s u c) .organizations).rows.find?
      (fun t => sameName t.name (change (toCatalogUser org createBy r)).org) = some o := by
    rw [hdorg]
    exact hc'.inOrg
  simp only [Action.bind, horg]
  apply remains_step rfl (by decide) (by omega)
  intro c' hc'
  have hfound : ((withRow s u c') .users).rows.find? (fun t => t.organizationId == o.id &&
      sameName t.name (change (toCatalogUser org createBy r)).name) = some c' := by
    rw [hdname]
    exact (h.ownName.withRow hc').found
  simp only [Action.bind, hfound]
  exact remains_updateUser hr hc'

/-- The command after it has read the row. -/
lemma remains_afterRead {touched : List UserField} (ht : Touches touched change)
    (h : FindsUser s org user o u createBy) (hr : SameUser u r) :
    Remains s u (changedRow org createBy change caller now) (steps u) (steps u - 2) r
      (JdbcCatalog.userName r.createBy >>= fun createBy =>
        JdbcCatalog.alterUser (change (toCatalogUser org createBy r)) caller now) := by
  rw [hr.createBy]
  unfold steps JdbcCatalog.userName
  split
  · rename_i hsystem
    have hcreator : createBy = "SYSTEM" := by
      have := h.creator
      rw [creatorName, if_pos hsystem] at this
      exact (Option.some.inj this).symm
    subst hcreator
    exact remains_alterUser ht h hr (by decide)
  · rename_i hsystem
    apply remains_step rfl (by decide) (by decide)
    intro c hc
    have hcreator := (h.withRow hc).creator
    rw [creatorName, hc.createBy, if_neg hsystem] at hcreator
    obtain ⟨v, hv, hname⟩ := Option.map_eq_some_iff.mp hcreator
    subst hname
    simp only [Action.bind, hv]
    exact remains_alterUser ht h hr (by decide)

lemma remains_changeUser {touched : List UserField} (ht : Touches touched change)
    (h : FindsUser s org user o u createBy) :
    Remains s u (changedRow org createBy change caller now) (steps u) (steps u) r
      (changeUser org user change caller now) := by
  have hsteps : steps u = steps u - 2 + 1 + 1 := by unfold steps; split <;> rfl
  have h5 : 4 < steps u := by unfold steps; split <;> decide
  rw [changeUser, JdbcCatalog.getUser, JdbcCatalog.organizationId]
  nth_rewrite 2 [hsteps]
  apply remains_step rfl (by omega) (by omega)
  intro c hc
  have horg : ((withRow s u c) .organizations).rows.find? (fun t => sameName t.name org) =
    some o := (h.withRow hc).inOrg
  simp only [Action.bind, horg]
  refine ⟨_, _, rfl, fun c' hc' => ?_⟩
  rw [if_neg (by omega), if_pos (by omega)]
  refine ⟨rfl, ?_⟩
  have hfound : ((withRow s u c') .users).rows.find? (fun t => t.organizationId == o.id &&
      sameName t.name user) = some c' := (h.withRow hc').found
  simp only [Action.bind, hfound]
  show Remains _ _ _ _ _ _ (_ >>= _ >>= _)
  rw [Action.bind_assoc]
  exact remains_afterRead ht h hc'

end Stages

/-! ### Two sessions -/

section Sessions

variable {s : Store} {u r : UserEntity} {f g : UserEntity → UserEntity} {n : Nat}

/-- A session that takes its next step, as a process that takes its. -/
lemma Remains.next {k : Nat} {m : DBIO Unit} {c : UserEntity} (hn : 2 < n)
    (h : Remains s u f n (n - k) r m) (hc : SameUser u c) :
    (Sessions.next m (withRow s u c)).1 = withRow s u (if k + 1 = n then f r else c) ∧
      Remains s u f n (n - (k + 1)) (if k + 1 = 2 then c else r)
        (Sessions.next m (withRow s u c)).2 := by
  cases hrem : n - k with
  | zero =>
    rw [hrem] at h
    rw [if_neg (by omega), if_neg (by omega), show n - (k + 1) = 0 by omega, show m = pure () from h]
    exact ⟨rfl, rfl⟩
  | succ rem =>
    rw [hrem] at h
    obtain ⟨writes, next, hm, hstep⟩ := h
    obtain ⟨hwrites, hnext⟩ := hstep c hc
    have hlast : k + 1 = n ↔ rem = 0 := by omega
    have hread : k + 1 = 2 ↔ rem + 2 = n := by omega
    simp only [hlast, hread, show n - (k + 1) = rem by omega, hm]
    exact ⟨hwrites, hnext⟩

/-- Two commands on the user are two processes on his row. -/
structure Simulates (s : Store) (u : UserEntity) (f g : UserEntity → UserEntity) (n : Nat)
    (S : Sessions Entity) (t : ReadModifyWrite.State UserEntity) : Prop where
  db : S.db = withRow s u t.cell
  running : ∃ m m', S.running = [m, m'] ∧ Remains s u f n (n - t.fstSteps) t.fstHeld m ∧
    Remains s u g n (n - t.sndSteps) t.sndHeld m'
  cell : SameUser u t.cell
  fstHeld : SameUser u t.fstHeld
  sndHeld : SameUser u t.sndHeld

lemma SameUser.ite {c : Prop} [Decidable c] {r' : UserEntity} (h : SameUser u r)
    (h' : SameUser u r') : SameUser u (if c then r else r') := by
  split
  · exact h
  · exact h'

lemma Simulates.advance {S : Sessions Entity} {t : ReadModifyWrite.State UserEntity} (hn : 2 < n)
    (hf : ∀ r, SameUser u r → SameUser u (f r)) (hg : ∀ r, SameUser u r → SameUser u (g r))
    (h : Simulates s u f g n S t) (i : Nat) :
    Simulates s u f g n (S.advance i) (ReadModifyWrite.advance 2 n f g t i) := by
  obtain ⟨hdb, ⟨m, m', hrunning, hm, hm'⟩, hcell, hfst, hsnd⟩ := h
  match i with
  | 0 =>
    have hstep := hm.next hn hcell
    rw [Sessions.advance_eq (m := m) (by simp [hrunning]), hdb, hrunning]
    exact ⟨hstep.1, ⟨_, m', rfl, hstep.2, hm'⟩, .ite (hf _ hfst) hcell, .ite hcell hfst, hsnd⟩
  | 1 =>
    have hstep := hm'.next hn hcell
    rw [Sessions.advance_eq (m := m') (by simp [hrunning]), hdb, hrunning]
    exact ⟨hstep.1, ⟨m, _, rfl, hm, hstep.2⟩, .ite (hg _ hsnd) hcell, hfst, .ite hcell hsnd⟩
  | i + 2 =>
    rw [Sessions.advance_of_none (by simp [hrunning])]
    exact ⟨hdb, ⟨m, m', hrunning, hm, hm'⟩, hcell, hfst, hsnd⟩

lemma Simulates.run {S : Sessions Entity} {t : ReadModifyWrite.State UserEntity} (hn : 2 < n)
    (hf : ∀ r, SameUser u r → SameUser u (f r)) (hg : ∀ r, SameUser u r → SameUser u (g r))
    (h : Simulates s u f g n S t) (schedule : List Nat) :
    Simulates s u f g n (S.run schedule) (ReadModifyWrite.run 2 n f g t schedule) := by
  induction schedule generalizing S t with
  | nil => exact h
  | cons i schedule ih => exact ih (h.advance hn hf hg i)

end Sessions

/-! ### Both commands run -/

/-- What the rest of an action writes when it is not interrupted. -/
lemma Remains.exec {s : Store} {u r c : UserEntity} {f : UserEntity → UserEntity} {n rem : Nat}
    {m : DBIO Unit} (hn : 2 < n) (h : Remains s u f n (rem + 1) r m) (hc : SameUser u c) :
    m.run.exec (withRow s u c) = withRow s u (f (if n ≤ rem + 2 then c else r)) := by
  induction rem generalizing r m with
  | zero =>
    obtain ⟨writes, next, hm, hstep⟩ := h
    obtain ⟨hwrites, hnext⟩ := hstep c hc
    rw [if_pos rfl] at hwrites
    rw [hm]
    show (next _).run.exec (execAll _ _) = _
    rw [hwrites, show next (withRow s u c) = pure () from hnext, if_neg (by omega)]
    rfl
  | succ rem ih =>
    obtain ⟨writes, next, hm, hstep⟩ := h
    obtain ⟨hwrites, hnext⟩ := hstep c hc
    rw [if_neg (by omega)] at hwrites
    rw [hm]
    show (next _).run.exec (execAll _ _) = _
    rw [hwrites, ih hnext]
    congr 2
    split <;> split <;> first | rfl | omega | (split <;> first | rfl | omega)

section Runs

variable [Names] {s : Store} {org user createBy : String} {o : OrganizationEntity}
  {u : UserEntity} {touched : List UserField} {change : CatalogUser → CatalogUser} {caller : User}
  {now : Nat}

omit [Names] in
lemma two_lt_steps (u : UserEntity) : 2 < steps u := by
  unfold steps
  split <;> decide

lemma changeUser_exec (ht : Touches touched change) (h : FindsUser s org user o u createBy) :
    (changeUser org user change caller now).run.exec s =
      withRow s u (changedRow org createBy change caller now u) := by
  have hremains : Remains s u (changedRow org createBy change caller now) (steps u) (steps u) u
    (changeUser org user change caller now) := remains_changeUser ht h
  obtain ⟨rem, hrem⟩ : ∃ rem, steps u = rem + 1 := by
    unfold steps
    split <;> exact ⟨_, rfl⟩
  nth_rewrite 2 [hrem] at hremains
  have hexec := hremains.exec (two_lt_steps u) SameUser.rfl
  rw [withRow_self h.mem, ite_self] at hexec
  exact hexec

/-- Without his creator the user is not read, so the command fails. -/
lemma quiet_changeUser (horg : Store.organization s org = some o)
    (hfound : Store.user s o.id user = some u) (hcreator : creatorName s u.createBy = none) :
    Sessions.Quiet s (changeUser org user change caller now) := by
  have hcreated : u.createBy ≠ -1 := by
    intro h
    rw [creatorName, if_pos h] at hcreator
    cases hcreator
  rw [creatorName, if_neg hcreated] at hcreator
  have hnone := Option.map_eq_none_iff.mp hcreator
  have horg' : (s .organizations).rows.find? (fun t => sameName t.name org) = some o := horg
  have hfound' : (s .users).rows.find? (fun t => t.organizationId == o.id &&
    sameName t.name user) = some u := hfound
  apply Sessions.Quiet.step rfl
  simp only [Action.bind, horg']
  apply Sessions.Quiet.step rfl
  simp only [Action.bind, hfound', JdbcCatalog.userName, if_neg hcreated]
  apply Sessions.Quiet.step rfl
  simp only [Action.bind, hnone]
  exact .throw _

end Runs

/-! ### Changes of different columns -/

def UserField.column : (f : UserField) → UserEntity → f.Value
  | .account, e => e.account
  | .ddl, e => e.ddl
  | .dcl, e => e.dcl
  | .grantAccount, e => e.grantAccount
  | .grantDdl, e => e.grantDdl
  | .grantDcl, e => e.grantDcl
  | .password, e => e.password
  | .configuration, e => e.configuration

lemma get_toCatalogUser (org createBy : String) (f : UserField) (r : UserEntity) :
    f.get (toCatalogUser org createBy r) = f.column r := by
  cases f <;> rfl

lemma column_changedRow (org createBy : String) (change : CatalogUser → CatalogUser)
    (caller : User) (now : Nat) (f : UserField) (r : UserEntity) :
    f.column (changedRow org createBy change caller now r) =
      f.get (change (toCatalogUser org createBy r)) := by
  cases f <;> rfl

/-- What `Touches` says of a change, said of the rows. The columns of the caller and the time are
the same whatever the row was. -/
structure RowTouches (touched : List UserField) (g : UserEntity → UserEntity) : Prop where
  frame : ∀ r, ∀ f ∉ touched, f.column (g r) = f.column r
  own : ∀ r r' (f : UserField), f.column r = f.column r' → f.column (g r) = f.column (g r')
  same : ∀ u r, SameUser u r → SameUser u (g r)
  isSA : ∀ r, (g r).isSA = r.isSA
  updateBy : ∀ r r', (g r).updateBy = (g r').updateBy
  updateTime : ∀ r r', (g r).updateTime = (g r').updateTime

lemma Touches.row {touched : List UserField} {change : CatalogUser → CatalogUser}
    (ht : Touches touched change) (org createBy : String) (caller : User) (now : Nat) :
    RowTouches touched (changedRow org createBy change caller now) where
  frame r f hf := by rw [column_changedRow, ht.frame _ f hf, get_toCatalogUser]
  own r r' f h := by
    rw [column_changedRow, column_changedRow]
    apply ht.own
    rw [get_toCatalogUser, get_toCatalogUser, h]
  same _ _ h := h.changedRow ht
  isSA _ := ht.isSA _
  updateBy _ _ := rfl
  updateTime _ _ := rfl

lemma eq_of_columns {u r r' : UserEntity} (h : SameUser u r) (h' : SameUser u r')
    (hcolumns : ∀ f : UserField, f.column r = f.column r') (hisSA : r.isSA = r'.isSA)
    (hby : r.updateBy = r'.updateBy) (htime : r.updateTime = r'.updateTime) : r = r' := by
  have haccount := hcolumns .account
  have hddl := hcolumns .ddl
  have hdcl := hcolumns .dcl
  have hgrantAccount := hcolumns .grantAccount
  have hgrantDdl := hcolumns .grantDdl
  have hgrantDcl := hcolumns .grantDcl
  have hpassword := hcolumns .password
  have hconfiguration := hcolumns .configuration
  have hid := h.id.trans h'.id.symm
  have horg := h.organizationId.trans h'.organizationId.symm
  have hname := h.name.trans h'.name.symm
  have hcreateBy := h.createBy.trans h'.createBy.symm
  have hcreateTime := h.createTime.trans h'.createTime.symm
  cases r
  cases r'
  simp_all only [UserField.column]

section Disjoint

variable {touched touched' : List UserField} {g g' : UserEntity → UserEntity} {u : UserEntity}

lemma RowTouches.comm (h : RowTouches touched g) (h' : RowTouches touched' g')
    (hd : touched.Disjoint touched') (f : UserField) :
    f.column (g (g' u)) = f.column (g' (g u)) := by
  by_cases hf : f ∈ touched
  · rw [h'.frame (g u) f fun hf' => hd hf hf']
    exact h.own _ _ f (h'.frame u f fun hf' => hd hf hf')
  · rw [h.frame (g' u) f hf]
    exact h'.own _ _ f (h.frame u f hf).symm

/-- If the first change makes no difference to the second it makes none at all. -/
lemma RowTouches.cancel (h : RowTouches touched g) (h' : RowTouches touched' g')
    (hd : touched.Disjoint touched') (heq : ∀ f : UserField, f.column (g' u) = f.column (g' (g u)))
    (f : UserField) : f.column (g u) = f.column u := by
  by_cases hf : f ∈ touched
  · have hf' : f ∉ touched' := fun hf' => hd hf hf'
    rw [← h'.frame (g u) f hf', ← heq f, h'.frame u f hf']
  · exact h.frame u f hf

/-- The second change alone is what both make in some order just if the first makes none. -/
lemma RowTouches.lost_iff (h : RowTouches touched g) (h' : RowTouches touched' g')
    (hd : touched.Disjoint touched') :
    (g' u = g' (g u) ∨ g' u = g (g' u)) ↔ ∀ f ∈ touched, f.column (g u) = f.column u := by
  constructor
  · rintro (heq | heq) f _
    · exact h.cancel h' hd (fun f => congrArg f.column heq) f
    · apply h.cancel h' hd _ f
      intro f
      rw [← h.comm h' hd f, ← heq]
  · intro hidle
    have hcolumns : ∀ f : UserField, f.column (g u) = f.column u := by
      intro f
      by_cases hf : f ∈ touched
      · exact hidle f hf
      · exact h.frame u f hf
    refine Or.inl (eq_of_columns (h'.same u u .rfl) (h'.same u _ (h.same u u .rfl)) ?_ ?_ ?_ ?_)
    · exact fun f => h'.own _ _ f (hcolumns f).symm
    · rw [h'.isSA, h'.isSA, h.isSA]
    · exact h'.updateBy _ _
    · exact h'.updateTime _ _

end Disjoint

/-! ### Two commands on one user -/

/-- The two actions one after the other, each to its end. -/
def inOrder (m m' : DBIO Unit) (s : Store) : Store := m'.run.exec (m.run.exec s)

/-- The command leaves the fields it is there to change as they were in the row. -/
def UserCommand.ChangesNothing (env : Env) (u : UserEntity) (c : UserCommand) : Prop :=
  ∀ org createBy, ∀ f ∈ c.fields, f.get (c.change env (toCatalogUser org createBy u)) = f.column u

section Commands

variable [Names] {env : Env} {k k' : MoonboxCatalog} {t t' : Nat} {c c' : UserCommand} {s : Store}
  {o o' : OrganizationEntity} {u : UserEntity}

/-- The row that the command makes of the one it has read. -/
def UserCommand.changed (env : Env) (k : MoonboxCatalog) (t : Nat) (createBy : String)
    (c : UserCommand) : UserEntity → UserEntity :=
  changedRow (c.org k) createBy (c.change env) k.userInSession t

omit [Names] in
lemma UserCommand.row (env : Env) (k : MoonboxCatalog) (t : Nat) (createBy : String)
    (c : UserCommand) : RowTouches c.fields (c.changed env k t createBy) :=
  (c.touches env).row _ _ _ _

omit [Names] in
lemma UserCommand.changesNothing_iff (createBy : String) :
    c.ChangesNothing env u ↔ ∀ f ∈ c.fields, f.column (c.changed env k t createBy u) = f.column u := by
  constructor
  · intro h f hf
    rw [changed, column_changedRow]
    exact h _ _ f hf
  · intro h org createBy' f hf
    rw [← h f hf, changed, column_changedRow]
    apply (c.touches env).own
    rw [get_toCatalogUser, get_toCatalogUser]

/-- What two commands on a user leave behind when they take turns. -/
lemma run_two_commands {createBy : String}
    (h : FindsUser s (c.org k) c.user o u createBy)
    (h' : FindsUser s (c'.org k') c'.user o' u createBy) {schedule : List Nat}
    (hn : steps u ≤ schedule.count 0) (hn' : steps u ≤ schedule.count 1) :
    ((⟨s, [c.run env k t, c'.run env k' t']⟩ : Sessions Entity).run schedule).db =
      withRow s u (ReadModifyWrite.outcome (c.changed env k t createBy) (c'.changed env k' t' createBy)
        u (ReadModifyWrite.overlaps 2 (steps u) schedule)
        (ReadModifyWrite.writesFirst (steps u) schedule)) := by
  have hsim : Simulates s u (c.changed env k t createBy) (c'.changed env k' t' createBy) (steps u)
      ⟨s, [c.run env k t, c'.run env k' t']⟩ (ReadModifyWrite.init u) := by
    refine ⟨(withRow_self h.mem).symm, ⟨_, _, rfl, ?_, ?_⟩, .rfl, .rfl, .rfl⟩
    · rw [c.run_eq]
      exact remains_changeUser (c.touches env) h
    · rw [c'.run_eq]
      exact remains_changeUser (c'.touches env) h'
  have hrun := hsim.run (two_lt_steps u) ((c.row env k t createBy).same u)
    ((c'.row env k' t' createBy).same u) schedule
  rw [hrun.db, ReadModifyWrite.run_cell Nat.zero_lt_two (two_lt_steps u) hn hn']

lemma inOrder_commands {createBy : String}
    (h : FindsUser s (c.org k) c.user o u createBy)
    (h' : FindsUser s (c'.org k') c'.user o' u createBy) :
    inOrder (c.run env k t) (c'.run env k' t') s =
      withRow s u (c'.changed env k' t' createBy (c.changed env k t createBy u)) := by
  have hsame := (c.row env k t createBy).same u u .rfl
  have hfst : (c.run env k t).run.exec s = withRow s u (c.changed env k t createBy u) := by
    rw [c.run_eq]
    exact changeUser_exec (c.touches env) h
  rw [inOrder, hfst, c'.run_eq, changeUser_exec (c'.touches env) (h'.withRow hsame)]
  exact withRow_withRow hsame.id

/-- The user both commands are about. -/
structure OnUser (s : Store) (k : MoonboxCatalog) (c : UserCommand) (o : OrganizationEntity)
    (u : UserEntity) : Prop where
  inOrg : Store.organization s (c.org k) = some o
  found : Store.user s o.id c.user = some u

theorem no_lost_update (hd : c.fields.Disjoint c'.fields) (h : OnUser s k c o u)
    (h' : OnUser s k' c' o' u) {schedule : List Nat} (hn : steps u ≤ schedule.count 0)
    (hn' : steps u ≤ schedule.count 1) :
    (((⟨s, [c.run env k t, c'.run env k' t']⟩ : Sessions Entity).run schedule).db =
        inOrder (c.run env k t) (c'.run env k' t') s ∨
      ((⟨s, [c.run env k t, c'.run env k' t']⟩ : Sessions Entity).run schedule).db =
        inOrder (c'.run env k' t') (c.run env k t) s) ↔
      creatorName s u.createBy = none ∨
      ReadModifyWrite.overlaps 2 (steps u) schedule = false ∨
      if ReadModifyWrite.writesFirst (steps u) schedule then c.ChangesNothing env u
      else c'.ChangesNothing env u := by
  cases hcreator : creatorName s u.createBy with
  | none =>
    have hquiet : Sessions.Quiet s (c.run env k t) := by
      rw [c.run_eq]
      exact quiet_changeUser h.inOrg h.found hcreator
    have hquiet' : Sessions.Quiet s (c'.run env k' t') := by
      rw [c'.run_eq]
      exact quiet_changeUser h'.inOrg h'.found hcreator
    have hrun := Sessions.run_quiet (s := ⟨s, [c.run env k t, c'.run env k' t']⟩)
      (by simpa using ⟨hquiet, hquiet'⟩) schedule
    rw [hrun, inOrder, hquiet.exec, hquiet'.exec]
    simp
  | some createBy =>
    have hfind : FindsUser s (c.org k) c.user o u createBy := ⟨h.inOrg, h.found, hcreator⟩
    have hfind' : FindsUser s (c'.org k') c'.user o' u createBy := ⟨h'.inOrg, h'.found, hcreator⟩
    have hrow := c.row env k t createBy
    have hrow' := c'.row env k' t' createBy
    have hfst := hrow.same u u .rfl
    have hsnd := hrow'.same u u .rfl
    have hboth := hrow'.same u _ hfst
    have hboth' := hrow.same u _ hsnd
    rw [run_two_commands hfind hfind' hn hn', inOrder_commands hfind hfind',
      inOrder_commands hfind' hfind]
    cases ReadModifyWrite.overlaps 2 (steps u) schedule with
    | false => cases ReadModifyWrite.writesFirst (steps u) schedule <;> simp [ReadModifyWrite.outcome]
    | true =>
      cases ReadModifyWrite.writesFirst (steps u) schedule with
      | true =>
        simp only [ReadModifyWrite.outcome, withRow_inj hfind.mem hsnd hboth,
          withRow_inj hfind.mem hsnd hboth', hrow.lost_iff hrow' hd]
        simpa using (c.changesNothing_iff createBy).symm
      | false =>
        have hd' : c'.fields.Disjoint c.fields := fun _ hf' hf => hd hf hf'
        rw [or_comm]
        simp only [ReadModifyWrite.outcome, withRow_inj hfind.mem hfst hboth,
          withRow_inj hfind.mem hfst hboth', hrow'.lost_iff hrow hd']
        simpa using (c'.changesNothing_iff createBy).symm

end Commands

def grantDdlToBob : UserCommand := .grantPrivilegeToUser ⟨[.DDL], by decide⟩ "bob"

def grantAccountToBob : UserCommand := .grantPrivilegeToUser ⟨[.ACCOUNT], by decide⟩ "bob"

lemma onBob {c : UserCommand} (hc : c.org sessionOfSa = "a") (hu : c.user = "bob") :
    letI := exactNames
    OnUser saAndBob sessionOfSa c rowOfA rowOfBob := by
  let _ := exactNames
  refine ⟨?_, ?_⟩
  · rw [hc]
    decide
  · rw [hu]
    decide

/-- One session after the other. -/
theorem no_lost_update_in_turn :
    letI := exactNames
    let final := ((⟨saAndBob, [grantDdlToBob.run plainEnv sessionOfSa 3,
      grantAccountToBob.run plainEnv sessionOfSa 4]⟩ : Sessions Entity).run
        [0, 0, 0, 0, 0, 0, 1, 1, 1, 1, 1, 1]).db
    final = inOrder (grantDdlToBob.run plainEnv sessionOfSa 3)
        (grantAccountToBob.run plainEnv sessionOfSa 4) saAndBob ∨
      final = inOrder (grantAccountToBob.run plainEnv sessionOfSa 4)
        (grantDdlToBob.run plainEnv sessionOfSa 3) saAndBob := by
  let _ := exactNames
  have hd : grantDdlToBob.fields.Disjoint grantAccountToBob.fields := by
    show List.Disjoint [UserField.ddl] [UserField.account]
    simp
  exact (no_lost_update hd (onBob rfl rfl) (onBob rfl rfl) (by decide) (by decide)).mpr
    (.inr (.inl (by decide)))

/-- Both sessions read the row of bob before either writes it. -/
theorem no_lost_update_fails :
    letI := exactNames
    let final := ((⟨saAndBob, [grantDdlToBob.run plainEnv sessionOfSa 3,
      grantAccountToBob.run plainEnv sessionOfSa 4]⟩ : Sessions Entity).run
        [0, 1, 0, 1, 0, 1, 0, 1, 0, 1, 0, 1]).db
    final ≠ inOrder (grantDdlToBob.run plainEnv sessionOfSa 3)
        (grantAccountToBob.run plainEnv sessionOfSa 4) saAndBob ∧
      final ≠ inOrder (grantAccountToBob.run plainEnv sessionOfSa 4)
        (grantDdlToBob.run plainEnv sessionOfSa 3) saAndBob := by
  let _ := exactNames
  constructor
  · intro h
    have hrows := congrArg (fun s : Store => (s .users).rows.map UserEntity.ddl) h
    revert hrows
    decide
  · intro h
    have hrows := congrArg (fun s : Store => (s .users).rows.map UserEntity.ddl) h
    revert hrows
    decide

end Moonbox.Core
