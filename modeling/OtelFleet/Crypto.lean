import OtelFleet.Lib.Base64
import Mathlib.Tactic.Common

-- Envelope encryption of secrets at rest. A ciphertext is a version byte, a nonce, and what the
-- authenticated encryption makes of the plaintext.
namespace Crypto

open Base64 (Bytes)

def nonceSize : Nat :=
  12

abbrev Nonce := { b : Bytes // b.length = nonceSize }

structure AEAD where
  sealWith : Nonce → String → Bytes
  openWith : Nonce → Bytes → Option String
  openWith_sealWith : ∀ nonce plaintext, openWith nonce (sealWith nonce plaintext) = some plaintext

abbrev Cipher := Option AEAD

def ErrNotConfigured : String :=
  "master key not configured (set OTELFLEET_MASTER_KEY)"

def ErrDecrypt : String :=
  "cannot decrypt: data corrupted or wrong master key"

def version1 : UInt8 :=
  1

def encrypt (c : Cipher) (nonce : Except String Nonce) (plaintext : String) : Except String Bytes :=
  match c with
  | none => .error ErrNotConfigured
  | some aead =>
    match nonce with
    | .error e => .error ("generate nonce: " ++ e)
    | .ok nonce => .ok (version1 :: (nonce.val ++ aead.sealWith nonce plaintext))

def decrypt (c : Cipher) (ciphertext : Bytes) : Except String String :=
  match c with
  | none => .error ErrNotConfigured
  | some aead =>
    match ciphertext with
    | [] => .error ErrDecrypt
    | version :: rest =>
      if h : nonceSize ≤ rest.length then
        if version ≠ version1 then .error ErrDecrypt
        else
          match aead.openWith ⟨rest.take nonceSize, List.length_take_of_le h⟩ (rest.drop nonceSize) with
          | some plaintext => .ok plaintext
          | none => .error ErrDecrypt
      else .error ErrDecrypt

theorem decrypt_encrypt (h : encrypt c nonce plaintext = .ok ct) : decrypt c ct = .ok plaintext := by
  unfold encrypt at h
  split at h
  case _ => cases h
  case _ aead =>
    split at h
    case _ => cases h
    case _ nonce =>
      cases h
      have hl := nonce.property
      have ht : (nonce.val ++ aead.sealWith nonce plaintext).take nonceSize = nonce.val :=
        List.take_left' hl
      have hd : (nonce.val ++ aead.sealWith nonce plaintext).drop nonceSize = aead.sealWith nonce plaintext :=
        List.drop_left' hl
      have hlen : nonceSize ≤ (nonce.val ++ aead.sealWith nonce plaintext).length := by
        rw [List.length_append, hl]
        omega
      simp only [decrypt, hlen, dite_true, ne_eq, not_true_eq_false, if_false, ht, hd,
        aead.openWith_sealWith]

section Sample

def runeBytes (c : Char) : Bytes :=
  [.ofNat (c.toNat / 65536), .ofNat (c.toNat / 256), .ofNat c.toNat]

def ofRuneBytes : Bytes → List Char
  | a :: b :: c :: bs => .ofNat (a.toNat * 65536 + b.toNat * 256 + c.toNat) :: ofRuneBytes bs
  | _ => []

theorem ofRuneBytes_flatMap (cs : List Char) : ofRuneBytes (cs.flatMap runeBytes) = cs := by
  induction cs
  case nil => rfl
  case cons c cs hi =>
    have hc : c.toNat < 0x110000 := by
      have := c.valid
      simp only [UInt32.isValidChar, Nat.isValidChar] at this
      show c.val.toNat < _
      omega
    simp only [List.flatMap_cons, runeBytes, List.cons_append, List.nil_append, ofRuneBytes, hi,
      UInt8.toNat_ofNat']
    have hn : c.toNat / 65536 % 2 ^ 8 * 65536 + c.toNat / 256 % 2 ^ 8 * 256 + c.toNat % 2 ^ 8 =
        c.toNat := by omega
    rw [hn, Char.ofNat_toNat]

def AEAD.sample : AEAD where
  sealWith _ plaintext := plaintext.toList.flatMap runeBytes
  openWith _ ciphertext := some (String.ofList (ofRuneBytes ciphertext))
  openWith_sealWith _ plaintext := by simp [ofRuneBytes_flatMap]

end Sample

end Crypto
