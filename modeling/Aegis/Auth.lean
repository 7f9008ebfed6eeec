/-
  Aegis.Auth

  API keys (internal/auth/apikey.go).

  A key is `aegis_<lookup>_<secret>`, where the secret is the base64 text of 32
  random bytes and the lookup part its first ten characters.  The separator is a
  symbol of the base64 alphabet, so `ParsePrefix` may cut the lookup part.

  Strings are lists of bytes here, as `len` and `SplitN` see them.  HMAC-SHA-256
  is a parameter: any function of the pepper and the text.
-/

import Aegis.Go
import Aegis.Lib.Base64

namespace Aegis.Auth

open Aegis.Lib (ascii splitN splitN_append splitN_of_mem)
open Aegis.Lib.Base64 (encode length_encode sextets underscore_mem_take_encode_iff)

def keyPrefix : List UInt8 := ascii "aegis"

/-- `'_'`. -/
def underscore : UInt8 := 95

/-- The errors of the package. -/
inductive Error where
  | invalidKey
  | expiredKey
  | revokedKey
deriving DecidableEq, Repr

/-- The credential record loaded from persistence; its `Prefix` is the key it is
    found under. -/
structure StoredKey where
  id : String
  tenantID : String
  userID : String
  hash : List UInt8
  scopes : List String
  expiresAt : Option Time := none
  revokedAt : Option Time := none
deriving DecidableEq, Repr

structure Principal where
  apiKeyID : String
  tenantID : String
  userID : String
  /-- the keys of a map -/
  scopes : List String
deriving DecidableEq, Repr

def StoredKey.principal (stored : StoredKey) : Principal where
  apiKeyID := stored.id
  tenantID := stored.tenantID
  userID := stored.userID
  scopes := stored.scopes

/-- `FindAPIKeyByPrefix`. -/
abbrev Lookup := List UInt8 → Except GoError StoredKey

/-- What `Generate` returns. -/
structure Generated where
  plain : List UInt8
  lookupPrefix : List UInt8
  hash : List UInt8
deriving DecidableEq, Repr

/-- `ParsePrefix` returns the indexed non-secret portion of a key. -/
def parsePrefix (plain : List UInt8) : Except Error (List UInt8) :=
  match splitN underscore 3 plain with
  | [name, lookupPrefix, secret] =>
      if name ≠ keyPrefix ∨ lookupPrefix.length ≠ 10 ∨ secret.length < 40 then
        .error .invalidKey
      else .ok lookupPrefix
  | _ => .error .invalidKey

section Hmac

variable (hmac : List UInt8 → List UInt8 → List UInt8)

/-- `Hash` creates the keyed digest stored in PostgreSQL. -/
def hash (pepper plain : List UInt8) : List UInt8 := hmac pepper plain

/-- `Generate`; `random` is what `rand.Read` yields. -/
def generate (pepper : List UInt8) (random : Except GoError (Fin 32 → UInt8)) :
    Except GoError Generated :=
  if pepper.length < 32 then .error (.new "API key pepper must be at least 32 bytes")
  else
    match random with
    | .error err => .error (.wrap "generate API key" err)
    | .ok random =>
        let encoded := encode (List.ofFn random)
        let lookupPrefix := encoded.take 10
        let plain := keyPrefix ++ underscore :: (lookupPrefix ++ underscore :: encoded)
        .ok { plain, lookupPrefix, hash := hash hmac pepper plain }

/-- `Verify` authenticates a display-once secret. -/
def verify (lookup : Lookup) (pepper plain : List UInt8) (now : Time) :
    Except Error Principal :=
  match parsePrefix plain with
  | .error _ => .error .invalidKey
  | .ok lookupPrefix =>
      match lookup lookupPrefix with
      | .error _ => .error .invalidKey
      | .ok stored =>
          let computed := hash hmac pepper plain
          if computed.length ≠ stored.hash.length ∨ computed ≠ stored.hash then
            .error .invalidKey
          else if stored.revokedAt.isSome then .error .revokedKey
          -- a key is not valid any more at the time of its expiry
          else if stored.expiresAt.any fun expiresAt => decide (¬now < expiresAt) then
            .error .expiredKey
          else .ok stored.principal

/-! ## Round trip -/

theorem underscore_not_mem_keyPrefix : underscore ∉ keyPrefix := by decide

/-- The parts of a generated key, if the separator is not among the first ten
    symbols. -/
theorem parsePrefix_of_not_mem {encoded : List UInt8} (hlength : encoded.length = 43)
    (hclear : underscore ∉ encoded.take 10) :
    parsePrefix (keyPrefix ++ underscore :: (encoded.take 10 ++ underscore :: encoded))
      = .ok (encoded.take 10) := by
  have hsplit : splitN underscore 3
      (keyPrefix ++ underscore :: (encoded.take 10 ++ underscore :: encoded))
      = [keyPrefix, encoded.take 10, encoded] := by
    rw [splitN_append 1 underscore_not_mem_keyPrefix, splitN_append 0 hclear, splitN]
  have hten : (encoded.take 10).length = 10 := by
    rw [List.length_take, hlength]
    rfl
  unfold parsePrefix
  rw [hsplit]
  dsimp only
  rw [if_neg]
  rintro (hname | hlookup | hsecret)
  · exact hname rfl
  · exact hlookup hten
  · omega

/-- The lookup part of a generated key is cut short, if the separator is among
    the first ten symbols. -/
theorem parsePrefix_of_mem {encoded : List UInt8} (hcut : underscore ∈ encoded.take 10) :
    parsePrefix (keyPrefix ++ underscore :: (encoded.take 10 ++ underscore :: encoded))
      = .error .invalidKey := by
  obtain ⟨first, others, hsplit, hshort⟩ :=
    splitN_of_mem (underscore :: encoded) 0 hcut
  have hten : (encoded.take 10).length ≤ 10 := List.length_take_le ..
  unfold parsePrefix
  rw [splitN_append 1 underscore_not_mem_keyPrefix, hsplit]
  split
  · next name lookupPrefix secret hparts =>
      obtain ⟨-, hfirst⟩ := List.cons.inj hparts
      obtain ⟨rfl, -⟩ := List.cons.inj hfirst
      rw [if_pos]
      exact Or.inr (Or.inl (by omega))
  · rfl

variable {hmac}

/-- `Verify` of a key whose lookup part is found, with its hash. -/
theorem verify_of_parsePrefix {lookup : Lookup} {pepper plain lookupPrefix : List UInt8}
    {stored : StoredKey} {now : Time} (hparse : parsePrefix plain = .ok lookupPrefix)
    (hlookup : lookup lookupPrefix = .ok stored) (hhash : stored.hash = hash hmac pepper plain)
    (hrevoked : stored.revokedAt = none) (hexpires : ∀ t ∈ stored.expiresAt, now < t) :
    verify hmac lookup pepper plain now = .ok stored.principal := by
  have hvalid : (stored.expiresAt.any fun expiresAt => decide (¬now < expiresAt)) = false := by
    cases hexpiry : stored.expiresAt with
    | none => rfl
    | some t =>
        have hbefore : now < t := hexpires t hexpiry
        simp [hbefore]
  unfold verify
  simp only [hparse, hlookup, hhash, ne_eq, not_true_eq_false, or_self, if_false, hrevoked,
    Option.isSome_none, Bool.false_eq_true, hvalid]

variable (hmac)

/-- **When a generated key authenticates.**  For every pepper of at least 32
    bytes and all random bytes, the generated key parses to its lookup part, and
    `Verify` returns the principal that is stored with its hash under that part,
    exactly when none of the first ten groups of six bits is all ones. -/
theorem generated_key_authenticates_iff (pepper : List UInt8) (random : Fin 32 → UInt8)
    (key : Generated) (hkey : generate hmac pepper (.ok random) = .ok key) :
    (parsePrefix key.plain = .ok key.lookupPrefix
      ∧ ∀ lookup : Lookup, ∀ stored now, lookup key.lookupPrefix = .ok stored →
        stored.hash = key.hash → stored.revokedAt = none → (∀ t ∈ stored.expiresAt, now < t) →
        verify hmac lookup pepper key.plain now = .ok stored.principal)
      ↔ 63 ∉ (sextets (List.ofFn random)).take 10 := by
  have hlength : (encode (List.ofFn random)).length = 43 := by
    rw [length_encode, List.length_ofFn]
  unfold generate at hkey
  split at hkey
  · cases hkey
  · cases hkey
    dsimp only
    rw [← underscore_mem_take_encode_iff]
    constructor
    · rintro ⟨hparse, -⟩ hcut
      cases (parsePrefix_of_mem hcut).symm.trans hparse
    · intro hclear
      have hparse := parsePrefix_of_not_mem hlength hclear
      refine ⟨hparse, ?_⟩
      intro lookup stored now hlookup hhash hrevoked hexpires
      exact verify_of_parsePrefix hparse hlookup hhash hrevoked hexpires

end Hmac

/-- The random bytes 0, 1, …, 31. -/
theorem generated_key_authenticates_counting :
    ∃ key, generate (fun _ plain => plain) (List.replicate 32 7) (.ok fun i => i.val.toUInt8)
        = .ok key
      ∧ parsePrefix key.plain = .ok key.lookupPrefix := by
  refine ⟨_, rfl, ?_⟩
  exact ((generated_key_authenticates_iff (fun _ plain => plain) (List.replicate 32 7)
    (fun i => i.val.toUInt8) _ rfl).mpr (by decide +kernel)).1

/-- The text of 32 bytes 255 begins with underscores.  The key is refused,
    whatever is stored. -/
theorem underscore_key_rejected :
    underscore ∈ (encode (List.ofFn fun _ : Fin 32 => 255)).take 10
      ∧ ∀ hmac : List UInt8 → List UInt8 → List UInt8,
        ∃ key, generate hmac (List.replicate 32 7) (.ok fun _ => 255) = .ok key
          ∧ parsePrefix key.plain = .error .invalidKey
          ∧ ∀ lookup now,
            verify hmac lookup (List.replicate 32 7) key.plain now = .error .invalidKey := by
  have hcut : underscore ∈ (encode (List.ofFn fun _ : Fin 32 => 255)).take 10 := by
    decide +kernel
  refine ⟨hcut, ?_⟩
  intro hmac
  have hparse := parsePrefix_of_mem hcut
  refine ⟨_, rfl, hparse, ?_⟩
  intro lookup now
  unfold verify
  simp only [hparse]

end Aegis.Auth
