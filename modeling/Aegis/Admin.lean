/-
  Aegis.Admin

  Tenants and API keys, as cmd/admin-cli/main.go writes them to the tables of
  migrations/000001_initial.up.sql.

  A command is one transaction: it commits or leaves the tables as they were.
  `fault` is an error that ends a command before its commit, `id` what
  `gen_random_uuid()` yields and `now` what `now()` reads.  The journal lists what
  the committed commands did, in order.
-/

import Aegis.Auth
import Aegis.Lib.Runs
import Aegis.Persistence.PostgresSpec

namespace Aegis.Admin

open Aegis.Auth (Principal StoredKey generate hash parsePrefix)
open Aegis.Lib (Table run_invariant')
open Aegis.Persistence (orViolation orViolation_eq_ok require require_eq_ok)

/-! ## Tables -/

/-- A row of `tenants`; the columns that no command below reads are left out. -/
structure TenantRow where
  id : String
  name : String
  slug : String
deriving DecidableEq, Repr

/-- The primary key or the unique constraint of `tenants`. -/
def TenantRow.Clash (a b : String × String) : Prop := a.1 = b.1 ∨ a.2 = b.2

instance : DecidableRel TenantRow.Clash := fun _ _ => inferInstanceAs (Decidable (_ ∨ _))

def TenantRow.key (r : TenantRow) : String × String := (r.id, r.slug)

/-- A row of `api_keys`. -/
structure KeyRow where
  id : String
  tenantID : String
  userID : Option String := none
  name : String
  keyPrefix : List UInt8
  keyHash : List UInt8
  scopes : List String
  expiresAt : Option Time := none
  revokedAt : Option Time := none
deriving DecidableEq, Repr

/-- The primary key or either unique constraint of `api_keys`. -/
def KeyRow.Clash (a b : String × (String × String) × List UInt8) : Prop :=
  a.1 = b.1 ∨ a.2.1 = b.2.1 ∨ a.2.2 = b.2.2

instance : DecidableRel KeyRow.Clash := fun _ _ => inferInstanceAs (Decidable (_ ∨ _ ∨ _))

def KeyRow.key (r : KeyRow) : String × (String × String) × List UInt8 :=
  (r.id, (r.tenantID, r.name), r.keyPrefix)

structure Registry where
  tenants : Table TenantRow.key TenantRow.Clash
  keys : Table KeyRow.key KeyRow.Clash

def Registry.empty : Registry := ⟨Table.empty, Table.empty⟩

def KeyRow.stored (r : KeyRow) : StoredKey where
  id := r.id
  tenantID := r.tenantID
  userID := r.userID.getD ""
  hash := r.keyHash
  scopes := r.scopes
  expiresAt := r.expiresAt
  revokedAt := r.revokedAt

/-- `FindAPIKeyByPrefix`. -/
def Registry.findAPIKeyByPrefix (x : Registry) (keyPrefix : List UInt8) :
    Except GoError StoredKey :=
  match x.keys.rows.find? fun r => r.keyPrefix == keyPrefix with
  | none => .error (.ofSentinel .errNotFound)
  | some r => .ok r.stored

/-! ## Commands -/

/-- A key as it is handed out. -/
structure Grant where
  id : String
  tenantID : String
  scopes : List String
  /-- the secret, shown once -/
  plain : List UInt8
  lookupPrefix : List UInt8
deriving DecidableEq, Repr

/-- Whom a request with the key is from. -/
def Grant.principal (grant : Grant) : Principal where
  apiKeyID := grant.id
  tenantID := grant.tenantID
  userID := ""
  scopes := grant.scopes

/-- What a committed command did. -/
inductive Receipt where
  | tenantCreated (id slug : String)
  | keyIssued (grant : Grant)
  | keyRevoked (id : String)
deriving DecidableEq, Repr

/-- `tenants_slug_format`: `^[a-z0-9][a-z0-9-]{1,62}$`. -/
def slugFormat (slug : String) : Bool :=
  let plain := fun c : Char => ('a' ≤ c ∧ c ≤ 'z') ∨ ('0' ≤ c ∧ c ≤ '9')
  match slug.toList with
  | [] => false
  | first :: rest => plain first && 1 ≤ rest.length && rest.length ≤ 62
      && rest.all fun c => plain c || c == '-'

/-- `splitCSV`. -/
def splitCSV (value : String) : List String :=
  ((value.toList.splitOn ',').map fun part => trimmed (String.ofList part)).filter (· != "")

def devTenantID : String := "00000000-0000-0000-0000-000000000001"

def devKeyID : String := "00000000-0000-0000-0000-000000000003"

section Commands

variable (hmac : List UInt8 → List UInt8 → List UInt8) (pepper : List UInt8)

/-- The row of a new key. -/
def Grant.row (grant : Grant) (name : String) : KeyRow where
  id := grant.id
  tenantID := grant.tenantID
  name := name
  keyPrefix := grant.lookupPrefix
  keyHash := hash hmac pepper grant.plain
  scopes := grant.scopes

/-- `INSERT INTO tenants ... ON CONFLICT (id) DO NOTHING`. -/
def seedTenant (x : Registry) : Except GoError Registry :=
  if x.tenants.rows.any fun t => t.id == devTenantID then .ok x
  else do
    let tenants ← orViolation "tenants_slug_key" (x.tenants.insert?
      { id := devTenantID, name := "Aegis Development", slug := "aegis-development" })
    return { x with tenants }

/-- `INSERT INTO api_keys ... ON CONFLICT (id) DO UPDATE SET
    key_hash=EXCLUDED.key_hash,key_prefix=EXCLUDED.key_prefix`: a key that is
    present keeps its tenant, its scopes and its revocation. -/
def seedKey (plain lookupPrefix : List UInt8) (x : Registry) : Except GoError (Grant × Registry) :=
  match x.keys.rows.find? fun r => r.id == devKeyID with
  | none => do
      let grant : Grant :=
        { id := devKeyID, tenantID := devTenantID, scopes := ["*"], plain, lookupPrefix }
      let keys ← orViolation "api_keys_key_prefix_key"
        (x.keys.insert? (grant.row hmac pepper "development"))
      return (grant, { x with keys })
  | some r => do
      let grant : Grant :=
        { id := devKeyID, tenantID := r.tenantID, scopes := r.scopes, plain, lookupPrefix }
      let keys ← orViolation "api_keys_key_prefix_key" (x.keys.updateWhere?
        (fun r => r.id == devKeyID)
        fun r => { r with keyPrefix := lookupPrefix, keyHash := hash hmac pepper plain })
      return (grant, { x with keys })

/-- `seed`; `others` is the error of one of the statements between the two, which
    fill the catalog. -/
def seed (devAPIKey : List UInt8) (others : Option GoError) (x : Registry) :
    Except GoError (Receipt × Registry) :=
  match parsePrefix devAPIKey with
  | .error _ => .error (.new "invalid API key")
  | .ok lookupPrefix => do
      let x ← seedTenant x
      match others with
      | some err => .error (.wrap "seed database" err)
      | none => do
          let (grant, x) ← seedKey hmac pepper devAPIKey lookupPrefix x
          return (.keyIssued grant, x)

/-- `createTenant`. -/
def createTenant (name slug id : String) (x : Registry) : Except GoError (Receipt × Registry) :=
  if name = "" ∨ slug = "" then .error (.new "--name and --slug are required")
  else do
    require "tenants_slug_format" (slugFormat slug)
    let tenants ← orViolation "tenants_slug_key" (x.tenants.insert? { id, name, slug })
    return (.tenantCreated id slug, { x with tenants })

/-- `createAPIKey`: `INSERT ... SELECT ... FROM tenants WHERE slug=$1`. -/
def createAPIKey (tenant name scopes : String) (random : Except GoError (Fin 32 → UInt8))
    (id : String) (x : Registry) : Except GoError (Receipt × Registry) :=
  if tenant = "" ∨ name = "" then .error (.new "--tenant and --name are required")
  else do
    let key ← generate hmac pepper random
    match x.tenants.rows.find? fun t => t.slug == tenant with
    | none => .error (.new "no rows in result set")
    | some t =>
        let grant : Grant :=
          { id, tenantID := t.id, scopes := splitCSV scopes, plain := key.plain,
            lookupPrefix := key.lookupPrefix }
        let keys ← orViolation "api_keys_key_prefix_key" (x.keys.insert?
          { grant.row hmac pepper name with keyHash := key.hash })
        return (.keyIssued grant, { x with keys })

/-- `revokeAPIKey`: `UPDATE ... WHERE id=$1 AND revoked_at IS NULL`. -/
def revokeAPIKey (id : String) (now : Time) (x : Registry) :
    Except GoError (Receipt × Registry) :=
  let affected := fun r : KeyRow => r.id == id && r.revokedAt.isNone
  if x.keys.rows.countP affected ≠ 1 then .error (.ofSentinel .errNotFound)
  else
    .ok (.keyRevoked id, { x with
      keys := x.keys.updateWhere affected (fun r => { r with revokedAt := some now })
        fun _ => rfl })

/-- The commands that write the two tables. -/
inductive Command where
  | seed (devAPIKey : List UInt8) (others : Option GoError)
  | createTenant (name slug id : String)
  | createAPIKey (tenant name scopes : String) (random : Except GoError (Fin 32 → UInt8))
      (id : String)
  | revokeAPIKey (id : String) (now : Time)

/-- `run` of a command. -/
def Command.exec (x : Registry) : Command → Except GoError (Receipt × Registry)
  | .seed devAPIKey others => Admin.seed hmac pepper devAPIKey others x
  | .createTenant name slug id => Admin.createTenant name slug id x
  | .createAPIKey tenant name scopes random id =>
      Admin.createAPIKey hmac pepper tenant name scopes random id x
  | .revokeAPIKey id now => Admin.revokeAPIKey id now x

structure Desk where
  registry : Registry
  journal : List Receipt

def Desk.empty : Desk := ⟨.empty, []⟩

/-- A command, with the error that ends it before its commit, if any. -/
def step (desk : Desk) (input : Command × Option GoError) : Desk :=
  match input.2, input.1.exec hmac pepper desk.registry with
  | none, .ok (receipt, registry) => ⟨registry, desk.journal ++ [receipt]⟩
  | _, _ => desk

/-! ## What a command changes -/

/-- The change of `api_keys` that a receipt stands for. -/
inductive Change (x y : Registry) : Receipt → Prop where
  | tenant (id slug : String) : y.keys = x.keys → Change x y (.tenantCreated id slug)
  | insert (grant : Grant) (name : String) :
      (∀ r ∈ x.keys.rows, r.id ≠ grant.id) →
      y.keys.rows = x.keys.rows ++ [grant.row hmac pepper name] → Change x y (.keyIssued grant)
  | replace (grant : Grant) (old : KeyRow) :
      old ∈ x.keys.rows → old.id = grant.id → old.tenantID = grant.tenantID →
      old.scopes = grant.scopes →
      (y.keys.rows = x.keys.rows.map fun r =>
        if r.id == grant.id then
          { r with keyPrefix := grant.lookupPrefix, keyHash := hash hmac pepper grant.plain }
        else r) →
      Change x y (.keyIssued grant)
  | revoke (id : String) (now : Time) :
      (∃ r ∈ x.keys.rows, r.id = id) →
      (y.keys.rows = x.keys.rows.map fun r =>
        if r.id == id && r.revokedAt.isNone then { r with revokedAt := some now } else r) →
      Change x y (.keyRevoked id)

/-- The hash of a generated key is that of its text. -/
theorem hash_of_generate {random : Except GoError (Fin 32 → UInt8)} {key : Auth.Generated}
    (h : generate hmac pepper random = .ok key) : key.hash = hash hmac pepper key.plain := by
  unfold generate at h
  split at h
  · cases h
  · split at h
    · cases h
    · cases h
      rfl

theorem seedTenant_keys {x y : Registry} (h : seedTenant x = .ok y) : y.keys = x.keys := by
  unfold seedTenant at h
  split at h
  · cases h
    rfl
  · obtain ⟨tenants, -, h⟩ := bind_eq_ok.mp h
    cases h
    rfl

theorem seedKey_change {plain lookupPrefix : List UInt8} {x y : Registry} {grant : Grant}
    (h : seedKey hmac pepper plain lookupPrefix x = .ok (grant, y)) :
    Change hmac pepper x y (.keyIssued grant) := by
  unfold seedKey at h
  split at h
  · next hnone =>
      obtain ⟨keys, hinsert, h⟩ := bind_eq_ok.mp h
      cases h
      obtain ⟨-, hrows⟩ := Table.insert?_eq_some (orViolation_eq_ok.mp hinsert)
      refine .insert _ "development" ?_ hrows
      intro r hr hid
      exact List.find?_eq_none.mp hnone r hr (beq_iff_eq.mpr hid)
  · next old hold =>
      obtain ⟨keys, hupdate, h⟩ := bind_eq_ok.mp h
      cases h
      have hid : (old.id == devKeyID) = true :=
        List.find?_some (p := fun r : KeyRow => r.id == devKeyID) hold
      exact .replace _ old (List.mem_of_find?_eq_some hold) (beq_iff_eq.mp hid) rfl rfl
        (Table.updateWhere?_eq_some (orViolation_eq_ok.mp hupdate))

theorem createAPIKey_change {tenant name scopes id : String}
    {random : Except GoError (Fin 32 → UInt8)} {x y : Registry} {receipt : Receipt}
    (h : createAPIKey hmac pepper tenant name scopes random id x = .ok (receipt, y)) :
    Change hmac pepper x y receipt := by
  unfold createAPIKey at h
  split at h
  · cases h
  · obtain ⟨key, hkey, h⟩ := bind_eq_ok.mp h
    split at h
    · cases h
    · obtain ⟨keys, hinsert, h⟩ := bind_eq_ok.mp h
      cases h
      obtain ⟨hfresh, hrows⟩ := Table.insert?_eq_some (orViolation_eq_ok.mp hinsert)
      rw [hash_of_generate hmac pepper hkey] at hrows
      exact .insert _ name (fun r hr hid => hfresh r hr (Or.inl hid)) hrows

theorem revokeAPIKey_change {id : String} {now : Time} {x y : Registry} {receipt : Receipt}
    (h : revokeAPIKey id now x = .ok (receipt, y)) : Change hmac pepper x y receipt := by
  unfold revokeAPIKey at h
  dsimp only at h
  split at h
  · cases h
  · next hone =>
      cases h
      refine .revoke id now ?_ rfl
      obtain ⟨r, hr, haffected⟩ := List.countP_pos_iff.mp
        (Nat.lt_of_lt_of_eq Nat.one_pos (not_not.mp hone).symm)
      exact ⟨r, hr, beq_iff_eq.mp (Bool.and_eq_true_iff.mp haffected).1⟩

theorem exec_change {x y : Registry} {command : Command} {receipt : Receipt}
    (h : command.exec hmac pepper x = .ok (receipt, y)) : Change hmac pepper x y receipt := by
  cases command with
  | seed devAPIKey others =>
      change seed hmac pepper devAPIKey others x = _ at h
      unfold seed at h
      split at h
      · cases h
      · obtain ⟨x', htenant, h⟩ := bind_eq_ok.mp h
        split at h
        · cases h
        · obtain ⟨⟨grant, y'⟩, hkey, h⟩ := bind_eq_ok.mp h
          cases h
          have hkeys := seedTenant_keys htenant
          cases seedKey_change hmac pepper hkey with
          | insert _ name hfresh hrows =>
              rw [hkeys] at hfresh hrows
              exact .insert grant name hfresh hrows
          | replace _ old hold hid htenantID hscopes hrows =>
              rw [hkeys] at hold hrows
              exact .replace grant old hold hid htenantID hscopes hrows
  | createTenant name slug id =>
      change createTenant name slug id x = _ at h
      unfold createTenant at h
      split at h
      · cases h
      · obtain ⟨-, -, h⟩ := bind_eq_ok.mp h
        obtain ⟨tenants, -, h⟩ := bind_eq_ok.mp h
        cases h
        exact .tenant id slug rfl
  | createAPIKey => exact createAPIKey_change hmac pepper h
  | revokeAPIKey => exact revokeAPIKey_change hmac pepper h

/-! ## The journal -/

/-- The grant of a receipt, if it issues the key `id`. -/
def Receipt.grant? (id : String) : Receipt → Option Grant
  | .keyIssued grant => if grant.id = id then some grant else none
  | _ => none

/-- The grant under which the key `id` was last issued. -/
def lastIssued (journal : List Receipt) (id : String) : Option Grant :=
  journal.reverse.findSome? (Receipt.grant? id)

@[simp] theorem lastIssued_nil (id : String) : lastIssued [] id = none := rfl

theorem lastIssued_append (journal : List Receipt) (receipt : Receipt) (id : String) :
    lastIssued (journal ++ [receipt]) id = (receipt.grant? id).or (lastIssued journal id) := by
  unfold lastIssued
  rw [List.reverse_append, List.reverse_singleton, List.singleton_append, List.findSome?_cons]
  cases receipt.grant? id with
  | none => rfl
  | some grant => rfl

/-- A key that was issued is in the journal, under its id. -/
theorem mem_of_lastIssued {journal : List Receipt} {id : String} {grant : Grant}
    (h : lastIssued journal id = some grant) : .keyIssued grant ∈ journal ∧ grant.id = id := by
  obtain ⟨receipt, hmem, hgrant⟩ := List.exists_of_findSome?_eq_some h
  cases receipt with
  | keyIssued issued =>
      change (if issued.id = id then some issued else none) = some grant at hgrant
      split at hgrant
      · next hid =>
          cases hgrant
          exact ⟨List.mem_reverse.mp hmem, hid⟩
      · cases hgrant
  | tenantCreated => cases hgrant
  | keyRevoked => cases hgrant

/-- The key a receipt is about. -/
def Receipt.keyID? : Receipt → Option String
  | .tenantCreated .. => none
  | .keyIssued grant => some grant.id
  | .keyRevoked id => some id

/-- Each row of `api_keys` is what the journal says of its key. -/
structure Kept (desk : Desk) : Prop where
  issued : ∀ r ∈ desk.registry.keys.rows, ∃ grant name,
    lastIssued desk.journal r.id = some grant
      ∧ r = { grant.row hmac pepper name with revokedAt := r.revokedAt }
  revoked : ∀ r ∈ desk.registry.keys.rows,
    r.revokedAt.isSome = true ↔ .keyRevoked r.id ∈ desk.journal
  present : ∀ receipt ∈ desk.journal, ∀ id ∈ receipt.keyID?,
    ∃ r ∈ desk.registry.keys.rows, r.id = id

theorem kept_empty : Kept hmac pepper .empty where
  issued := fun _ hr => absurd hr List.not_mem_nil
  revoked := fun _ hr => absurd hr List.not_mem_nil
  present := fun _ hreceipt => absurd hreceipt List.not_mem_nil

variable {hmac pepper}

theorem Kept.tenant {x : Registry} {journal : List Receipt} (h : Kept hmac pepper ⟨x, journal⟩)
    {y : Registry} (hkeys : y.keys = x.keys) (id slug : String) :
    Kept hmac pepper ⟨y, journal ++ [.tenantCreated id slug]⟩ := by
  obtain ⟨hissued, hrevoked, hpresent⟩ := h
  refine ⟨?_, ?_, ?_⟩ <;> dsimp only <;> rw [hkeys]
  · intro r hr
    rw [lastIssued_append]
    exact hissued r hr
  · intro r hr
    rw [hrevoked r hr]
    simp
  · intro receipt hreceipt key hkey
    rcases List.mem_append.mp hreceipt with hold | hnew
    · exact hpresent receipt hold key hkey
    · rw [List.mem_singleton.mp hnew] at hkey
      exact absurd hkey (Option.not_mem_none key)

theorem Kept.insert {x : Registry} {journal : List Receipt} (h : Kept hmac pepper ⟨x, journal⟩)
    {y : Registry} {grant : Grant} {name : String} (hfresh : ∀ r ∈ x.keys.rows, r.id ≠ grant.id)
    (hrows : y.keys.rows = x.keys.rows ++ [grant.row hmac pepper name]) :
    Kept hmac pepper ⟨y, journal ++ [.keyIssued grant]⟩ := by
  obtain ⟨hissued, hrevoked, hpresent⟩ := h
  refine ⟨?_, ?_, ?_⟩ <;> dsimp only <;> rw [hrows]
  · intro r hr
    rw [lastIssued_append]
    rcases List.mem_append.mp hr with hold | hnew
    · have hother : Receipt.grant? r.id (.keyIssued grant) = none := if_neg (hfresh r hold).symm
      rw [hother]
      exact hissued r hold
    · rw [List.mem_singleton.mp hnew]
      refine ⟨grant, name, ?_, rfl⟩
      have hsame : Receipt.grant? grant.id (.keyIssued grant) = some grant := if_pos rfl
      show (Receipt.grant? grant.id (.keyIssued grant)).or _ = _
      rw [hsame]
      rfl
  · intro r hr
    rcases List.mem_append.mp hr with hold | hnew
    · rw [hrevoked r hold]
      simp
    · -- an id that is in no row has not been revoked either
      rw [List.mem_singleton.mp hnew]
      constructor
      · intro hnone
        cases hnone
      · intro hmem
        rcases List.mem_append.mp hmem with hrevoked | hissue
        · obtain ⟨r, hr, hid⟩ := hpresent _ hrevoked grant.id rfl
          exact absurd hid (hfresh r hr)
        · cases List.mem_singleton.mp hissue
  · intro receipt hreceipt key hkey
    rcases List.mem_append.mp hreceipt with hold | hnew
    · obtain ⟨r, hr, hid⟩ := hpresent receipt hold key hkey
      exact ⟨r, List.mem_append_left _ hr, hid⟩
    · rw [List.mem_singleton.mp hnew] at hkey
      refine ⟨_, List.mem_append_right _ (List.mem_singleton_self _), ?_⟩
      exact Option.some.inj hkey

/-- An update keeps the rows under their ids. -/
theorem Kept.present_update {x : Registry} {journal : List Receipt}
    (h : Kept hmac pepper ⟨x, journal⟩) {receipt : Receipt} {f : KeyRow → KeyRow}
    (hf : ∀ r, (f r).id = r.id) (hreceipt : ∀ id ∈ receipt.keyID?, ∃ r ∈ x.keys.rows, r.id = id) :
    ∀ other ∈ journal ++ [receipt], ∀ id ∈ other.keyID?,
      ∃ r ∈ x.keys.rows.map f, r.id = id := by
  intro other hother id hid
  have hold : ∃ r ∈ x.keys.rows, r.id = id := by
    rcases List.mem_append.mp hother with hold | hnew
    · exact h.present other hold id hid
    · rw [List.mem_singleton.mp hnew] at hid
      exact hreceipt id hid
  obtain ⟨r, hr, hrid⟩ := hold
  exact ⟨f r, List.mem_map_of_mem hr, (hf r).trans hrid⟩

/-- Rows with one id are one row. -/
theorem Registry.eq_of_id (x : Registry) {a b : KeyRow} (ha : a ∈ x.keys.rows)
    (hb : b ∈ x.keys.rows) (hid : a.id = b.id) : a = b :=
  x.keys.eq_of_clash (fun _ _ => Or.imp Eq.symm (Or.imp Eq.symm Eq.symm)) ha hb (Or.inl hid)

theorem Kept.replace {x : Registry} {journal : List Receipt} (h : Kept hmac pepper ⟨x, journal⟩)
    {y : Registry} {grant : Grant} {old : KeyRow} (hold : old ∈ x.keys.rows)
    (hid : old.id = grant.id) (htenantID : old.tenantID = grant.tenantID)
    (hscopes : old.scopes = grant.scopes)
    (hrows : y.keys.rows = x.keys.rows.map fun r =>
      if r.id == grant.id then
        { r with keyPrefix := grant.lookupPrefix, keyHash := hash hmac pepper grant.plain }
      else r) :
    Kept hmac pepper ⟨y, journal ++ [.keyIssued grant]⟩ := by
  refine ⟨?_, ?_, ?_⟩ <;> dsimp only <;> rw [hrows]
  · intro r hr
    obtain ⟨r, hmem, rfl⟩ := List.mem_map.mp hr
    obtain ⟨before, name, hbefore, hrow⟩ := h.issued r hmem
    rw [lastIssued_append]
    by_cases hrid : r.id = grant.id
    · rw [if_pos (beq_iff_eq.mpr hrid)]
      obtain rfl := x.eq_of_id hmem hold (hrid.trans hid.symm)
      have hsame : Receipt.grant? r.id (.keyIssued grant) = some grant := if_pos hrid.symm
      refine ⟨grant, name, by rw [hsame]; rfl, ?_⟩
      rw [hrow] at htenantID hscopes hrid
      rw [hrow]
      simp only [Grant.row] at htenantID hscopes hrid ⊢
      rw [htenantID, hscopes, hrid]
    · rw [if_neg (mt beq_iff_eq.mp hrid)]
      have hother : Receipt.grant? r.id (.keyIssued grant) = none := if_neg (Ne.symm hrid)
      rw [hother]
      exact ⟨before, name, hbefore, hrow⟩
  · intro r hr
    obtain ⟨r, hmem, rfl⟩ := List.mem_map.mp hr
    have hkept := h.revoked r hmem
    split <;> simpa using hkept
  · refine h.present_update ?_ ?_
    · intro r
      split <;> rfl
    · intro id hmem
      exact ⟨old, hold, hid.trans (Option.some.inj hmem)⟩

theorem Kept.revoke {x : Registry} {journal : List Receipt} (h : Kept hmac pepper ⟨x, journal⟩)
    {y : Registry} {id : String} {now : Time} (hpresent : ∃ r ∈ x.keys.rows, r.id = id)
    (hrows : y.keys.rows = x.keys.rows.map fun r =>
      if r.id == id && r.revokedAt.isNone then { r with revokedAt := some now } else r) :
    Kept hmac pepper ⟨y, journal ++ [.keyRevoked id]⟩ := by
  refine ⟨?_, ?_, ?_⟩ <;> dsimp only <;> rw [hrows]
  · intro r hr
    obtain ⟨r, hmem, rfl⟩ := List.mem_map.mp hr
    obtain ⟨grant, name, hlast, hrow⟩ := h.issued r hmem
    rw [lastIssued_append]
    refine ⟨grant, name, ?_, ?_⟩
    · split <;> exact hlast
    · split
      · rw [hrow]
      · exact hrow
  · intro r hr
    obtain ⟨r, hmem, rfl⟩ := List.mem_map.mp hr
    have hkept := h.revoked r hmem
    by_cases hid : r.id = id
    · cases hrevoked : r.revokedAt with
      | none => simp [hid]
      | some t => simp [hid, hrevoked]
    · simp [hid, hkept]
  · refine h.present_update ?_ ?_
    · intro r
      split <;> rfl
    · intro other hmem
      obtain ⟨r, hr, hrid⟩ := hpresent
      exact ⟨r, hr, hrid.trans (Option.some.inj hmem)⟩

theorem Kept.step {desk : Desk} (h : Kept hmac pepper desk) (input : Command × Option GoError) :
    Kept hmac pepper (step hmac pepper desk input) := by
  unfold Admin.step
  split
  · next receipt registry _ hexec =>
      cases exec_change hmac pepper hexec with
      | tenant id slug hkeys => exact h.tenant hkeys id slug
      | insert grant name hfresh hrows => exact h.insert hfresh hrows
      | replace grant old hold hid htenantID hscopes hrows =>
          exact h.replace hold hid htenantID hscopes hrows
      | revoke id now hpresent hrows => exact h.revoke hpresent hrows
  · exact h

/-- The tables agree with the journal after every sequence of commands. -/
theorem run_kept (inputs : List (Command × Option GoError)) :
    Kept hmac pepper (Lib.run (step hmac pepper) .empty inputs) :=
  run_invariant' (fun _ input h => h.step input) inputs (kept_empty hmac pepper)

end Commands

end Aegis.Admin
