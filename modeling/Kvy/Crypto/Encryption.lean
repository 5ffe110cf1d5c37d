import Kvy.General.JsonRoundTrip
import Kvy.General.Utf8

/-!
# Bundles of both platforms

Values, blobs and data keys are encrypted by two entry points, which rest on different libraries. The
primitives of each are parameters. Where the two libraries agree, undo what they did and refuse what was
altered, both entry points make the same bundles, open each other's, and open anything else to null.
-/

namespace Kvy.Crypto

open General

/-- A sequence of bytes. -/
abbrev Bytes := List UInt8

/-- A fixed number of bytes, as keys and nonces have. -/
structure Block (size : Nat) where
  bytes : Bytes
  sized : bytes.length = size

/-- `try` with a value for what is thrown. -/
def attempt {α : Type} (body : Except Unit α) (fallback : α) : Except Unit α :=
  match body with
  | .ok value => .ok value
  | .error _ => .ok fallback

/-- `new TextDecoder().decode`, which skips a byte order mark. -/
def decodeText (bytes : Bytes) : List Char :=
  match bytes with
  | 0xEF :: 0xBB :: 0xBF :: rest => Utf8.decode rest
  | _ => Utf8.decode bytes

/-- `new TextEncoder().encode(JSON.stringify(data))`. -/
def encodeValue (data : Json) : Bytes := Utf8.encode (data.stringify 0)

/-- `JSON.parse(new TextDecoder().decode(decrypted))`. -/
def parseValue (decrypted : Bytes) : Except Unit Json :=
  match Json.parse (decodeText decrypted) with
  | none => .error ()
  | some value => .ok value

/-- The two kinds of bundles of values. -/
inductive BundleVariant where
  | legacy
  | dataKey

/-- The length of the nonce of a bundle. -/
def BundleVariant.nonceLength : BundleVariant → Nat
  | .legacy => 24
  | .dataKey => 12

/-! ## `encryption.ts` and `dek.ts` -/

/-- What `tweetnacl` and `node:crypto` provide. -/
structure NodePrimitives where
  secretbox (message nonce key : Bytes) : Except Unit Bytes
  secretboxOpen (box nonce key : Bytes) : Except Unit (Option Bytes)
  publicKey (secretKey : Bytes) : Bytes
  box (message nonce publicKey secretKey : Bytes) : Except Unit Bytes
  boxOpen (box nonce publicKey secretKey : Bytes) : Except Unit (Option Bytes)
  aesGcm (key nonce plaintext : Bytes) : Except Unit (Bytes × Bytes)
  aesGcmOpen (key nonce ciphertext authTag : Bytes) : Except Unit Bytes

namespace NodePrimitives

variable (node : NodePrimitives)

/-- `libsodiumEncryptForPublicKey`, with the ephemeral secret key and the nonce. -/
def libsodiumEncryptForPublicKey (ephemeral nonce data recipientPublicKey : Bytes) :
    Except Unit Bytes := do
  let encrypted ← node.box data nonce recipientPublicKey ephemeral
  return node.publicKey ephemeral ++ nonce ++ encrypted

/-- `libsodiumDecryptWithSecretKey`. -/
def libsodiumDecryptWithSecretKey (bundle recipientSecretKey : Bytes) : Except Unit (Option Bytes) :=
  if bundle.length < 32 + 24 then .ok none
  else
    let ephemeralPublicKey := bundle.take 32
    let nonce := (bundle.drop 32).take 24
    let ciphertext := bundle.drop (32 + 24)
    attempt (node.boxOpen ciphertext nonce ephemeralPublicKey recipientSecretKey) none

/-- `encryptLegacy`, with the nonce. -/
def encryptLegacy (nonce : Bytes) (data : Json) (secret : Bytes) : Except Unit Bytes := do
  let encrypted ← node.secretbox (encodeValue data) nonce secret
  return nonce ++ encrypted

/-- `decryptLegacy`. -/
def decryptLegacy (data secret : Bytes) : Except Unit Json :=
  if data.length < 24 then .ok .null
  else
    let nonce := data.take 24
    let encrypted := data.drop 24
    attempt (do
      match ← node.secretboxOpen encrypted nonce secret with
      | none => return .null
      | some decrypted => parseValue decrypted) .null

/-- `encryptBlob`, with the nonce. -/
def encryptBlob (nonce data key : Bytes) : Except Unit Bytes := do
  let encrypted ← node.secretbox data nonce key
  return nonce ++ encrypted

/-- `decryptBlob`. -/
def decryptBlob (bundle key : Bytes) : Except Unit (Option Bytes) :=
  if bundle.length < 24 + 16 then .ok none
  else attempt (node.secretboxOpen (bundle.drop 24) (bundle.take 24) key) none

/-- `encryptWithDataKey`, with the nonce. -/
def encryptWithDataKey (nonce : Bytes) (data : Json) (dataKey : Bytes) : Except Unit Bytes := do
  let (encrypted, authTag) ← node.aesGcm dataKey nonce (encodeValue data)
  return 0 :: (nonce ++ encrypted ++ authTag)

/-- `decryptWithDataKey`. -/
def decryptWithDataKey (bundle dataKey : Bytes) : Except Unit Json :=
  if bundle.length < 1 then .ok .null
  else if bundle.head? ≠ some 0 then .ok .null
  else if bundle.length < 12 + 16 + 1 then .ok .null
  else
    let nonce := (bundle.drop 1).take 12
    let authTag := bundle.drop (bundle.length - 16)
    let ciphertext := (bundle.take (bundle.length - 16)).drop 13
    attempt (do parseValue (← node.aesGcmOpen dataKey nonce ciphertext authTag)) .null

/-- `encrypt`, with the nonce. -/
def encrypt (nonce key : Bytes) (variant : BundleVariant) (data : Json) : Except Unit Bytes :=
  match variant with
  | .legacy => node.encryptLegacy nonce data key
  | .dataKey => node.encryptWithDataKey nonce data key

/-- `decrypt`. -/
def decrypt (key : Bytes) (variant : BundleVariant) (data : Bytes) : Except Unit Json :=
  match variant with
  | .legacy => node.decryptLegacy data key
  | .dataKey => node.decryptWithDataKey data key

/-- `wrapDek`, with the ephemeral secret key and the nonce. -/
def wrapDek (ephemeral nonce dek contentPublicKey : Bytes) : Except Unit Bytes := do
  let sealedBox ← node.libsodiumEncryptForPublicKey ephemeral nonce dek contentPublicKey
  return 0 :: sealedBox

/-- `unwrapDek`. -/
def unwrapDek (wrapped contentSecretKey : Bytes) : Except Unit (Option Bytes) :=
  if wrapped.length < 1 ∨ wrapped.head? ≠ some 0 then .ok none
  else node.libsodiumDecryptWithSecretKey (wrapped.drop 1) contentSecretKey

end NodePrimitives

/-! ## `encryption.web.ts` and `dek.web.ts` -/

/-- What `libsodium-wrappers` and `crypto.subtle` provide. -/
structure WebPrimitives where
  secretboxEasy (message nonce key : Bytes) : Except Unit Bytes
  secretboxOpenEasy (box nonce key : Bytes) : Except Unit (Option Bytes)
  publicKey (secretKey : Bytes) : Bytes
  boxEasy (message nonce publicKey secretKey : Bytes) : Except Unit Bytes
  boxOpenEasy (box nonce publicKey secretKey : Bytes) : Except Unit (Option Bytes)
  subtleEncrypt (key nonce plaintext : Bytes) : Except Unit Bytes
  subtleDecrypt (key nonce ciphertextAndTag : Bytes) : Except Unit Bytes

namespace WebPrimitives

variable (web : WebPrimitives)

/-- `libsodiumEncryptForPublicKey`, with the ephemeral secret key and the nonce. -/
def libsodiumEncryptForPublicKey (ephemeral nonce data recipientPublicKey : Bytes) :
    Except Unit Bytes := do
  let encrypted ← web.boxEasy data nonce recipientPublicKey ephemeral
  return web.publicKey ephemeral ++ nonce ++ encrypted

/-- `libsodiumDecryptWithSecretKey`. -/
def libsodiumDecryptWithSecretKey (bundle recipientSecretKey : Bytes) : Except Unit (Option Bytes) :=
  if bundle.length < 32 + 24 then .ok none
  else
    let ephemeralPublicKey := bundle.take 32
    let nonce := (bundle.drop 32).take 24
    let ciphertext := bundle.drop (32 + 24)
    attempt (web.boxOpenEasy ciphertext nonce ephemeralPublicKey recipientSecretKey) none

/-- `encryptLegacy`, with the nonce. -/
def encryptLegacy (nonce : Bytes) (data : Json) (secret : Bytes) : Except Unit Bytes := do
  let encrypted ← web.secretboxEasy (encodeValue data) nonce secret
  return nonce ++ encrypted

/-- `decryptLegacy`. -/
def decryptLegacy (data secret : Bytes) : Except Unit Json :=
  if data.length < 24 then .ok .null
  else
    let nonce := data.take 24
    let encrypted := data.drop 24
    attempt (do
      match ← web.secretboxOpenEasy encrypted nonce secret with
      | none => return .null
      | some decrypted => parseValue decrypted) .null

/-- `encryptBlob`, with the nonce. -/
def encryptBlob (nonce data key : Bytes) : Except Unit Bytes := do
  let encrypted ← web.secretboxEasy data nonce key
  return nonce ++ encrypted

/-- `decryptBlob`. -/
def decryptBlob (bundle key : Bytes) : Except Unit (Option Bytes) :=
  if bundle.length < 24 + 16 then .ok none
  else attempt (web.secretboxOpenEasy (bundle.drop 24) (bundle.take 24) key) none

/-- `encryptWithDataKey`, with the nonce. -/
def encryptWithDataKey (nonce : Bytes) (data : Json) (dataKey : Bytes) : Except Unit Bytes := do
  let encrypted ← web.subtleEncrypt dataKey nonce (encodeValue data)
  return 0 :: (nonce ++ encrypted)

/-- `decryptWithDataKey`. -/
def decryptWithDataKey (bundle dataKey : Bytes) : Except Unit Json :=
  if bundle.length < 1 then .ok .null
  else if bundle.head? ≠ some 0 then .ok .null
  else if bundle.length < 12 + 16 + 1 then .ok .null
  else
    let nonce := (bundle.drop 1).take 12
    let ciphertextAndTag := bundle.drop 13
    attempt (do parseValue (← web.subtleDecrypt dataKey nonce ciphertextAndTag)) .null

/-- `encrypt`, with the nonce. -/
def encrypt (nonce key : Bytes) (variant : BundleVariant) (data : Json) : Except Unit Bytes :=
  match variant with
  | .legacy => web.encryptLegacy nonce data key
  | .dataKey => web.encryptWithDataKey nonce data key

/-- `decrypt`. -/
def decrypt (key : Bytes) (variant : BundleVariant) (data : Bytes) : Except Unit Json :=
  match variant with
  | .legacy => web.decryptLegacy data key
  | .dataKey => web.decryptWithDataKey data key

/-- `wrapDek`, with the ephemeral secret key and the nonce. -/
def wrapDek (ephemeral nonce dek contentPublicKey : Bytes) : Except Unit Bytes := do
  let sealedBox ← web.libsodiumEncryptForPublicKey ephemeral nonce dek contentPublicKey
  return 0 :: sealedBox

/-- `unwrapDek`. -/
def unwrapDek (wrapped contentSecretKey : Bytes) : Except Unit (Option Bytes) :=
  if wrapped.length < 1 ∨ wrapped.head? ≠ some 0 then .ok none
  else web.libsodiumDecryptWithSecretKey (wrapped.drop 1) contentSecretKey

end WebPrimitives

/-! ## What the libraries promise -/

/-- One byte, at any place, is another. -/
def Altered (bundle altered : Bytes) : Prop :=
  ∃ before byte other after, byte ≠ other ∧ bundle = before ++ byte :: after ∧
    altered = before ++ other :: after

/-- What was opened; what is refused is thrown or null. -/
def opened (result : Except Unit (Option Bytes)) : Option Bytes :=
  match result with
  | .ok found => found
  | .error _ => none

/-- What a library closes behind a header of a fixed length, it opens again, unless a byte of the two was
altered. -/
structure Authenticated (headerLength : Nat) (close : Bytes → Bytes → Bytes → Prop)
    (openWith : Bytes → Bytes → Option Bytes) : Prop where
  undone : ∀ header message closed, header.length = headerLength → close header message closed →
    openWith header closed = some message
  refused : ∀ header message closed other altered, header.length = headerLength →
    other.length = headerLength → close header message closed →
    Altered (header ++ closed) (other ++ altered) → openWith other altered = none

/-- The libraries of both platforms compute the same functions for keys and nonces of the right length,
undo them and refuse what was altered. The ephemeral public key is part of what is authenticated. -/
structure Interoperable (node : NodePrimitives) (web : WebPrimitives) : Prop where
  secretbox : ∀ (key : Block 32) (nonce : Block 24) message, ∃ closed,
    node.secretbox message nonce.bytes key.bytes = .ok closed ∧
    web.secretboxEasy message nonce.bytes key.bytes = .ok closed ∧ closed.length = message.length + 16
  secretboxOpen : ∀ (key : Block 32) (nonce : Block 24) closed,
    opened (web.secretboxOpenEasy closed nonce.bytes key.bytes) =
      opened (node.secretboxOpen closed nonce.bytes key.bytes)
  secretboxAuthenticated : ∀ key : Block 32, Authenticated 24
    (fun nonce message closed => node.secretbox message nonce key.bytes = .ok closed)
    (fun nonce closed => opened (node.secretboxOpen closed nonce key.bytes))
  publicKey : ∀ secretKey : Block 32, (node.publicKey secretKey.bytes).length = 32 ∧
    web.publicKey secretKey.bytes = node.publicKey secretKey.bytes
  box : ∀ (recipient ephemeral : Block 32) (nonce : Block 24) message, ∃ closed,
    node.box message nonce.bytes (node.publicKey recipient.bytes) ephemeral.bytes = .ok closed ∧
    web.boxEasy message nonce.bytes (node.publicKey recipient.bytes) ephemeral.bytes = .ok closed
  boxOpen : ∀ (sender recipient : Block 32) (nonce : Block 24) closed,
    opened (web.boxOpenEasy closed nonce.bytes sender.bytes recipient.bytes) =
      opened (node.boxOpen closed nonce.bytes sender.bytes recipient.bytes)
  boxAuthenticated : ∀ recipient : Block 32, Authenticated (32 + 24)
    (fun header message closed => ∃ (ephemeral : Block 32) (nonce : Block 24),
      header = node.publicKey ephemeral.bytes ++ nonce.bytes ∧
      node.box message nonce.bytes (node.publicKey recipient.bytes) ephemeral.bytes = .ok closed)
    (fun header closed => opened (node.boxOpen closed (header.drop 32) (header.take 32) recipient.bytes))
  aesGcm : ∀ (key : Block 32) (nonce : Block 12) plaintext, ∃ ciphertext authTag,
    node.aesGcm key.bytes nonce.bytes plaintext = .ok (ciphertext, authTag) ∧ authTag.length = 16 ∧
    web.subtleEncrypt key.bytes nonce.bytes plaintext = .ok (ciphertext ++ authTag)
  aesGcmOpen : ∀ (key : Block 32) (nonce : Block 12) ciphertext (authTag : Block 16),
    (web.subtleDecrypt key.bytes nonce.bytes (ciphertext ++ authTag.bytes)).toOption =
      (node.aesGcmOpen key.bytes nonce.bytes ciphertext authTag.bytes).toOption
  aesGcmAuthenticated : ∀ key : Block 32, Authenticated 12
    (fun nonce plaintext closed => web.subtleEncrypt key.bytes nonce plaintext = .ok closed)
    (fun nonce closed => (web.subtleDecrypt key.bytes nonce closed).toOption)

/-! ## Bundles are cut behind their headers -/

variable {altered bundle : Bytes}

/-- An altered bundle has its length. -/
theorem Altered.length_eq (differs : Altered bundle altered) :
    altered.length = bundle.length := by
  obtain ⟨before, byte, other, after, -, rfl, rfl⟩ := differs
  simp

/-- Behind a byte in front, either that byte is altered or what follows. -/
theorem altered_cons {first : UInt8} (differs : Altered (first :: bundle) altered) :
    (∃ other, other ≠ first ∧ altered = other :: bundle) ∨
      ∃ rest, altered = first :: rest ∧ Altered bundle rest := by
  obtain ⟨before, byte, other, after, distinct, shape, rfl⟩ := differs
  cases before with
  | nil =>
    obtain ⟨rfl, rfl⟩ := List.cons.inj shape
    exact .inl ⟨other, distinct.symm, rfl⟩
  | cons head before =>
    obtain ⟨rfl, rfl⟩ := List.cons.inj shape
    exact .inr ⟨before ++ other :: after, rfl, before, byte, other, after, distinct, rfl, rfl⟩

variable {headerLength : Nat} {close : Bytes → Bytes → Bytes → Prop}
  {openWith : Bytes → Bytes → Option Bytes} {header message closed : Bytes}

/-- A bundle is opened where it is cut behind its header. -/
theorem Authenticated.opens (authenticated : Authenticated headerLength close openWith)
    (long : header.length = headerLength) (made : close header message closed) :
    openWith ((header ++ closed).take headerLength) ((header ++ closed).drop headerLength) =
      some message := by
  rw [List.take_left' long, List.drop_left' long]
  exact authenticated.undone header message closed long made

/-- An altered bundle is not opened. -/
theorem Authenticated.refuses (authenticated : Authenticated headerLength close openWith)
    (long : header.length = headerLength) (made : close header message closed)
    (differs : Altered (header ++ closed) altered) :
    openWith (altered.take headerLength) (altered.drop headerLength) = none := by
  have enough : headerLength ≤ altered.length := by
    rw [differs.length_eq, List.length_append]
    omega
  refine authenticated.refused header message closed _ _ long (List.length_take_of_le enough) made ?_
  rw [List.take_append_drop]
  exact differs

/-! ## What is read -/

/-- The value of what was opened. -/
def readValue (found : Option Bytes) : Json :=
  match found with
  | none => .null
  | some decrypted => (Json.parse (decodeText decrypted)).getD .null

/-- The text of a value begins with no byte order mark. -/
theorem stringify_begins (value : Json) : ∃ char rest, value.stringify 0 = char :: rest ∧
    char ≠ Char.ofNat 0xFEFF := by
  unfold Json.stringify
  cases value with
  | null => exact ⟨_, _, rfl, by decide⟩
  | bool flag => cases flag <;> exact ⟨_, _, rfl, by decide⟩
  | num number =>
    obtain ⟨first, tail, shape, start⟩ := number.text_starts
    refine ⟨first, tail, shape, ?_⟩
    rintro rfl
    exact absurd start (by decide)
  | str string => exact ⟨_, _, rfl, by decide⟩
  | arr items => cases items <;> exact ⟨_, _, rfl, by decide⟩
  | obj fields => rcases fields with _ | ⟨⟨key, value⟩, fields⟩ <;> exact ⟨_, _, rfl, by decide⟩

/-- A written value is read back. -/
theorem read_value (value : Json) (distinct : value.distinct = true) :
    readValue (some (encodeValue value)) = value := by
  have text : decodeText (encodeValue value) = value.stringify 0 := by
    obtain ⟨char, rest, shape, plain⟩ := stringify_begins value
    unfold decodeText
    split
    · rename_i bytes left marked
      have mark : String.utf8EncodeChar (Char.ofNat 0xFEFF) = [0xEF, 0xBB, 0xBF] := by decide
      have decoded := Utf8.decode_char (Char.ofNat 0xFEFF) left
      have written : Utf8.decode (0xEF :: 0xBB :: 0xBF :: left) = value.stringify 0 := by
        rw [← marked]
        exact Utf8.decode_encode _
      rw [mark] at decoded
      exact absurd (List.cons.inj ((written.trans shape).symm.trans decoded)).1 plain
    · exact Utf8.decode_encode _
  rw [readValue, text, Json.parse_stringify value 0 distinct]
  rfl

/-- Text that is not JSON is read as null. -/
theorem attempt_parse (decrypted : Bytes) :
    attempt (parseValue decrypted) .null = .ok (readValue (some decrypted)) := by
  cases parsed : Json.parse (decodeText decrypted) <;> simp [attempt, parseValue, readValue, parsed]

/-- What was thrown is null. -/
theorem attempt_opened (result : Except Unit (Option Bytes)) :
    attempt result none = .ok (opened result) := by
  cases result <;> rfl

/-- A value is read from what was opened. -/
theorem attempt_value (result : Except Unit (Option Bytes)) :
    attempt (do
      match ← result with
      | none => return .null
      | some decrypted => parseValue decrypted) .null = .ok (readValue (opened result)) := by
  cases result with
  | error _ => rfl
  | ok found =>
    cases found with
    | none => rfl
    | some decrypted => exact attempt_parse decrypted

/-- A value is read from what was opened by a step that throws. -/
theorem attempt_value_thrown (result : Except Unit Bytes) :
    attempt (do parseValue (← result)) .null = .ok (readValue result.toOption) := by
  cases result with
  | error _ => rfl
  | ok decrypted => exact attempt_parse decrypted

/-! ## Each kind of bundle -/

variable {node : NodePrimitives} {web : WebPrimitives}

/-- The first bytes of a long bundle. -/
def blockOf (bundle : Bytes) (size : Nat) (long : size ≤ bundle.length) : Block size :=
  ⟨bundle.take size, List.length_take_of_le long⟩

/-- Values in legacy bundles are read from what the libraries open. -/
theorem decrypt_legacy_eq (interoperable : Interoperable node web) (key : Block 32)
    (long : 24 ≤ bundle.length) :
    node.decryptLegacy bundle key.bytes =
        .ok (readValue (opened (node.secretboxOpen (bundle.drop 24) (bundle.take 24) key.bytes))) ∧
      web.decryptLegacy bundle key.bytes = node.decryptLegacy bundle key.bytes := by
  have nodeRead : node.decryptLegacy bundle key.bytes =
      .ok (readValue (opened (node.secretboxOpen (bundle.drop 24) (bundle.take 24) key.bytes))) := by
    rw [NodePrimitives.decryptLegacy, if_neg (by omega)]
    exact attempt_value _
  refine ⟨nodeRead, ?_⟩
  have webRead : web.decryptLegacy bundle key.bytes =
      .ok (readValue (opened (web.secretboxOpenEasy (bundle.drop 24) (bundle.take 24) key.bytes))) := by
    rw [WebPrimitives.decryptLegacy, if_neg (by omega)]
    exact attempt_value _
  rw [webRead, nodeRead]
  exact congrArg (fun found => Except.ok (readValue found))
    (interoperable.secretboxOpen key (blockOf bundle 24 long) (bundle.drop 24))

/-- Blobs are what the libraries open. -/
theorem decrypt_blob_eq (interoperable : Interoperable node web) (key : Block 32)
    (long : 24 + 16 ≤ bundle.length) :
    node.decryptBlob bundle key.bytes =
        .ok (opened (node.secretboxOpen (bundle.drop 24) (bundle.take 24) key.bytes)) ∧
      web.decryptBlob bundle key.bytes = node.decryptBlob bundle key.bytes := by
  have agreed := interoperable.secretboxOpen key (blockOf bundle 24 (by omega)) (bundle.drop 24)
  have nodeRead : node.decryptBlob bundle key.bytes =
      .ok (opened (node.secretboxOpen (bundle.drop 24) (bundle.take 24) key.bytes)) := by
    rw [NodePrimitives.decryptBlob, if_neg (by omega), attempt_opened]
  refine ⟨nodeRead, ?_⟩
  rw [nodeRead, WebPrimitives.decryptBlob, if_neg (by omega), attempt_opened]
  exact congrArg Except.ok agreed

/-- Values in bundles with a version are read from what the libraries open. -/
theorem decrypt_with_data_key_eq (interoperable : Interoperable node web) (key : Block 32)
    {rest : Bytes} (long : 12 + 16 ≤ rest.length) :
    web.decryptWithDataKey (0 :: rest) key.bytes =
        .ok (readValue (web.subtleDecrypt key.bytes (rest.take 12) (rest.drop 12)).toOption) ∧
      node.decryptWithDataKey (0 :: rest) key.bytes = web.decryptWithDataKey (0 :: rest) key.bytes := by
  have some' : ¬ (0 :: rest).length < 1 := by simp
  have version : ¬ (0 :: rest).head? ≠ some 0 := by simp
  have enough : ¬ (0 :: rest).length < 12 + 16 + 1 := by
    rw [List.length_cons]
    omega
  have webRead : web.decryptWithDataKey (0 :: rest) key.bytes =
      .ok (readValue (web.subtleDecrypt key.bytes (rest.take 12) (rest.drop 12)).toOption) := by
    rw [WebPrimitives.decryptWithDataKey, if_neg some', if_neg version, if_neg enough]
    exact attempt_value_thrown _
  refine ⟨webRead, ?_⟩
  -- the tag that one side cuts off is the end of what the other side passes on
  have cut : (0 :: rest).length - 16 = (rest.length - 16) + 1 := by
    rw [List.length_cons]
    omega
  have parts : (rest.take (rest.length - 16)).drop 12 ++ rest.drop (rest.length - 16) =
      rest.drop 12 := by
    have inside : 12 ≤ (rest.take (rest.length - 16)).length := by
      rw [List.length_take]
      omega
    rw [← List.drop_append_of_le_length inside, List.take_append_drop]
  have tagLength : (rest.drop (rest.length - 16)).length = 16 := by
    rw [List.length_drop]
    omega
  have agreed := interoperable.aesGcmOpen key (blockOf rest 12 (by omega))
    ((rest.take (rest.length - 16)).drop 12) ⟨rest.drop (rest.length - 16), tagLength⟩
  rw [parts] at agreed
  rw [webRead, NodePrimitives.decryptWithDataKey, if_neg some', if_neg version, if_neg enough, cut,
    List.take_succ_cons, List.drop_succ_cons, List.drop_succ_cons, List.drop_succ_cons]
  refine (attempt_value_thrown _).trans (congrArg (fun found => Except.ok (readValue found)) ?_)
  exact agreed.symm

/-- Sealed boxes are what the libraries open. -/
theorem decrypt_with_secret_key_eq (interoperable : Interoperable node web) (recipient : Block 32)
    (long : 32 + 24 ≤ bundle.length) :
    node.libsodiumDecryptWithSecretKey bundle recipient.bytes =
        .ok (opened (node.boxOpen (bundle.drop (32 + 24)) ((bundle.take (32 + 24)).drop 32)
          ((bundle.take (32 + 24)).take 32) recipient.bytes)) ∧
      web.libsodiumDecryptWithSecretKey bundle recipient.bytes =
        node.libsodiumDecryptWithSecretKey bundle recipient.bytes := by
  have sender : (bundle.take (32 + 24)).take 32 = bundle.take 32 := by
    rw [List.take_take]
    rfl
  have nonce : (bundle.take (32 + 24)).drop 32 = (bundle.drop 32).take 24 := by
    rw [List.drop_take]
  have nonceLength : ((bundle.drop 32).take 24).length = 24 := by
    rw [List.length_take, List.length_drop]
    omega
  have agreed := interoperable.boxOpen (blockOf bundle 32 (by omega)) recipient
    ⟨(bundle.drop 32).take 24, nonceLength⟩ (bundle.drop (32 + 24))
  have nodeRead : node.libsodiumDecryptWithSecretKey bundle recipient.bytes =
      .ok (opened (node.boxOpen (bundle.drop (32 + 24)) ((bundle.drop 32).take 24) (bundle.take 32)
        recipient.bytes)) := by
    rw [NodePrimitives.libsodiumDecryptWithSecretKey, if_neg (by omega), attempt_opened]
  refine ⟨by rw [nodeRead, sender, nonce], ?_⟩
  rw [nodeRead, WebPrimitives.libsodiumDecryptWithSecretKey, if_neg (by omega), attempt_opened]
  exact congrArg Except.ok agreed

/-! ## Both platforms -/

/-- A bundle of a value is opened by both, and an altered one by none. -/
def OpensValue (node : NodePrimitives) (web : WebPrimitives) (key : Bytes) (variant : BundleVariant)
    (bundle : Bytes) (value : Json) : Prop :=
  node.decrypt key variant bundle = .ok value ∧ web.decrypt key variant bundle = .ok value ∧
    ∀ altered, Altered bundle altered →
      node.decrypt key variant altered = .ok .null ∧ web.decrypt key variant altered = .ok .null

/-- A bundle of bytes is opened by both, and an altered one by none. -/
def OpensBytes (nodeOpen webOpen : Bytes → Bytes → Except Unit (Option Bytes)) (key bundle data : Bytes) :
    Prop :=
  nodeOpen bundle key = .ok (some data) ∧ webOpen bundle key = .ok (some data) ∧
    ∀ altered, Altered bundle altered → nodeOpen altered key = .ok none ∧ webOpen altered key = .ok none

/-- A bundle of a value with another version is null. -/
theorem unknown_version (key : Bytes) (unknown : bundle.head? ≠ some 0) :
    node.decrypt key .dataKey bundle = .ok .null ∧ web.decrypt key .dataKey bundle = .ok .null := by
  rw [NodePrimitives.decrypt, NodePrimitives.decryptWithDataKey, WebPrimitives.decrypt,
    WebPrimitives.decryptWithDataKey, if_pos unknown, if_pos unknown]
  exact ⟨ite_self _, ite_self _⟩

/-- Values are encrypted alike, and opened by both. -/
theorem values_interoperate (interoperable : Interoperable node web) (variant : BundleVariant)
    (key : Block 32) (nonce : Block variant.nonceLength) (value : Json)
    (distinct : value.distinct = true) : ∃ bundle,
      node.encrypt nonce.bytes key.bytes variant value = .ok bundle ∧
      web.encrypt nonce.bytes key.bytes variant value = .ok bundle ∧
      OpensValue node web key.bytes variant bundle value := by
  cases variant with
  | legacy =>
    obtain ⟨closed, nodeClosed, webClosed, -⟩ :=
      interoperable.secretbox key nonce (encodeValue value)
    have authenticated := interoperable.secretboxAuthenticated key
    have long : 24 ≤ (nonce.bytes ++ closed).length := by
      rw [List.length_append, nonce.sized]
      exact Nat.le_add_right _ _
    obtain ⟨nodeRead, webRead⟩ := decrypt_legacy_eq interoperable key long
    have found := authenticated.opens nonce.sized nodeClosed
    rw [found, read_value value distinct] at nodeRead
    refine ⟨nonce.bytes ++ closed, ?_, ?_, nodeRead, webRead.trans nodeRead, ?_⟩
    · rw [NodePrimitives.encrypt, NodePrimitives.encryptLegacy, nodeClosed]
      rfl
    · rw [WebPrimitives.encrypt, WebPrimitives.encryptLegacy, webClosed]
      rfl
    · intro altered differs
      have refused := authenticated.refuses nonce.sized nodeClosed differs
      have enough : 24 ≤ altered.length := differs.length_eq ▸ long
      obtain ⟨nodeNull, webNull⟩ := decrypt_legacy_eq interoperable key enough
      rw [refused] at nodeNull
      exact ⟨nodeNull, webNull.trans nodeNull⟩
  | dataKey =>
    obtain ⟨ciphertext, authTag, nodeClosed, tagLength, webClosed⟩ :=
      interoperable.aesGcm key nonce (encodeValue value)
    have authenticated := interoperable.aesGcmAuthenticated key
    have long : 12 + 16 ≤ (nonce.bytes ++ (ciphertext ++ authTag)).length := by
      rw [List.length_append, List.length_append, nonce.sized, tagLength, BundleVariant.nonceLength]
      omega
    obtain ⟨webRead, nodeRead⟩ := decrypt_with_data_key_eq interoperable key long
    have found := authenticated.opens nonce.sized webClosed
    rw [found, read_value value distinct] at webRead
    refine ⟨0 :: (nonce.bytes ++ (ciphertext ++ authTag)), ?_, ?_, nodeRead.trans webRead, webRead, ?_⟩
    · rw [NodePrimitives.encrypt, NodePrimitives.encryptWithDataKey, nodeClosed]
      exact congrArg (fun rest => Except.ok (0 :: rest)) (List.append_assoc _ _ _)
    · rw [WebPrimitives.encrypt, WebPrimitives.encryptWithDataKey, webClosed]
      rfl
    · intro altered differs
      obtain ⟨version, unknown, rfl⟩ | ⟨rest, rfl, inner⟩ := altered_cons differs
      · exact unknown_version key.bytes (by simpa using unknown)
      · have refused := authenticated.refuses nonce.sized webClosed inner
        have enough : 12 + 16 ≤ rest.length := inner.length_eq ▸ long
        obtain ⟨webNull, nodeNull⟩ := decrypt_with_data_key_eq interoperable key enough
        rw [refused] at webNull
        exact ⟨nodeNull.trans webNull, webNull⟩

/-- Blobs are encrypted alike, and opened by both; an altered one is opened by none. -/
theorem blobs_interoperate (interoperable : Interoperable node web) (key : Block 32)
    (nonce : Block 24) (data : Bytes) : ∃ bundle,
      node.encryptBlob nonce.bytes data key.bytes = .ok bundle ∧
      web.encryptBlob nonce.bytes data key.bytes = .ok bundle ∧
      OpensBytes node.decryptBlob web.decryptBlob key.bytes bundle data := by
  obtain ⟨closed, nodeClosed, webClosed, closedLength⟩ := interoperable.secretbox key nonce data
  have authenticated := interoperable.secretboxAuthenticated key
  have long : 24 + 16 ≤ (nonce.bytes ++ closed).length := by
    rw [List.length_append, nonce.sized, closedLength]
    omega
  obtain ⟨nodeRead, webRead⟩ := decrypt_blob_eq interoperable key long
  have found := authenticated.opens nonce.sized nodeClosed
  rw [found] at nodeRead
  refine ⟨nonce.bytes ++ closed, ?_, ?_, nodeRead, webRead.trans nodeRead, ?_⟩
  · rw [NodePrimitives.encryptBlob, nodeClosed]
    rfl
  · rw [WebPrimitives.encryptBlob, webClosed]
    rfl
  · intro altered differs
    have refused := authenticated.refuses nonce.sized nodeClosed differs
    have enough : 24 + 16 ≤ altered.length := differs.length_eq ▸ long
    obtain ⟨nodeNull, webNull⟩ := decrypt_blob_eq interoperable key enough
    rw [refused] at nodeNull
    exact ⟨nodeNull, webNull.trans nodeNull⟩

/-- A wrapped key with another version is null. -/
theorem unknown_wrapping (secretKey : Bytes) {wrapped : Bytes} (unknown : wrapped.head? ≠ some 0) :
    node.unwrapDek wrapped secretKey = .ok none ∧ web.unwrapDek wrapped secretKey = .ok none :=
  ⟨if_pos (.inr unknown), if_pos (.inr unknown)⟩

/-- A wrapped key is a sealed box behind its version. -/
theorem NodePrimitives.unwrap_eq (node : NodePrimitives) (secretKey rest : Bytes) :
    node.unwrapDek (0 :: rest) secretKey = node.libsodiumDecryptWithSecretKey rest secretKey :=
  if_neg (by simp)

/-- A wrapped key is a sealed box behind its version. -/
theorem WebPrimitives.unwrap_eq (web : WebPrimitives) (secretKey rest : Bytes) :
    web.unwrapDek (0 :: rest) secretKey = web.libsodiumDecryptWithSecretKey rest secretKey :=
  if_neg (by simp)

/-- Keys are wrapped alike, and unwrapped by both; an altered wrapping is unwrapped by none. -/
theorem keys_interoperate (interoperable : Interoperable node web) (recipient ephemeral : Block 32)
    (nonce : Block 24) (dek : Bytes) : ∃ wrapped,
      node.wrapDek ephemeral.bytes nonce.bytes dek (node.publicKey recipient.bytes) = .ok wrapped ∧
      web.wrapDek ephemeral.bytes nonce.bytes dek (web.publicKey recipient.bytes) = .ok wrapped ∧
      OpensBytes node.unwrapDek web.unwrapDek recipient.bytes wrapped dek := by
  obtain ⟨closed, nodeClosed, webClosed⟩ := interoperable.box recipient ephemeral nonce dek
  obtain ⟨publicLength, samePublic⟩ := interoperable.publicKey ephemeral
  have authenticated := interoperable.boxAuthenticated recipient
  have headerLength : (node.publicKey ephemeral.bytes ++ nonce.bytes).length = 32 + 24 := by
    rw [List.length_append, publicLength, nonce.sized]
  have long : 32 + 24 ≤ (node.publicKey ephemeral.bytes ++ nonce.bytes ++ closed).length := by
    rw [List.length_append, headerLength]
    exact Nat.le_add_right _ _
  have made : ∃ (sender : Block 32) (used : Block 24),
      node.publicKey ephemeral.bytes ++ nonce.bytes = node.publicKey sender.bytes ++ used.bytes ∧
      node.box dek used.bytes (node.publicKey recipient.bytes) sender.bytes = .ok closed :=
    ⟨ephemeral, nonce, rfl, nodeClosed⟩
  obtain ⟨nodeRead, webRead⟩ := decrypt_with_secret_key_eq interoperable recipient long
  have found := authenticated.opens headerLength made
  rw [found] at nodeRead
  refine ⟨0 :: (node.publicKey ephemeral.bytes ++ nonce.bytes ++ closed), ?_, ?_,
    (node.unwrap_eq _ _).trans nodeRead, (web.unwrap_eq _ _).trans (webRead.trans nodeRead), ?_⟩
  · rw [NodePrimitives.wrapDek, NodePrimitives.libsodiumEncryptForPublicKey, nodeClosed]
    rfl
  · rw [WebPrimitives.wrapDek, WebPrimitives.libsodiumEncryptForPublicKey,
      (interoperable.publicKey recipient).2, webClosed, samePublic]
    rfl
  · intro altered differs
    obtain ⟨version, unknown, rfl⟩ | ⟨rest, rfl, inner⟩ := altered_cons differs
    · exact unknown_wrapping recipient.bytes (by simpa using unknown)
    · have refused := authenticated.refuses headerLength made inner
      have enough : 32 + 24 ≤ rest.length := inner.length_eq ▸ long
      obtain ⟨nodeNull, webNull⟩ := decrypt_with_secret_key_eq interoperable recipient enough
      rw [refused] at nodeNull
      exact ⟨(node.unwrap_eq _ _).trans nodeNull, (web.unwrap_eq _ _).trans (webNull.trans nodeNull)⟩

/-- The number of bytes before the content of a bundle of a value, with its tag where it has one. -/
def BundleVariant.leastLength : BundleVariant → Nat
  | .legacy => 24
  | .dataKey => 1 + 12 + 16

/-- Bundles that are shorter than their headers are null. -/
theorem short_bundles (key bundle : Bytes) :
    (∀ variant : BundleVariant, bundle.length < variant.leastLength →
      node.decrypt key variant bundle = .ok .null ∧ web.decrypt key variant bundle = .ok .null) ∧
    (bundle.length < 24 + 16 →
      node.decryptBlob bundle key = .ok none ∧ web.decryptBlob bundle key = .ok none) ∧
    (bundle.length < 1 + 32 + 24 →
      node.unwrapDek bundle key = .ok none ∧ web.unwrapDek bundle key = .ok none) := by
  refine ⟨?_, fun short => ⟨if_pos short, if_pos short⟩, ?_⟩
  · rintro (_ | _) short
    · exact ⟨if_pos short, if_pos short⟩
    · have tooShort : bundle.length < 12 + 16 + 1 := short
      rw [NodePrimitives.decrypt, NodePrimitives.decryptWithDataKey, WebPrimitives.decrypt,
        WebPrimitives.decryptWithDataKey, if_pos tooShort, if_pos tooShort, ite_self, ite_self]
      exact ⟨rfl, rfl⟩
  · intro short
    have inner : (bundle.drop 1).length < 32 + 24 ∨ bundle.length < 1 := by
      rw [List.length_drop]
      omega
    obtain inner | empty := inner
    · rw [NodePrimitives.unwrapDek, NodePrimitives.libsodiumDecryptWithSecretKey,
        WebPrimitives.unwrapDek, WebPrimitives.libsodiumDecryptWithSecretKey, if_pos inner, if_pos inner]
      exact ⟨ite_self _, ite_self _⟩
    · exact ⟨if_pos (.inl empty), if_pos (.inl empty)⟩

/-- A result that is not thrown. -/
def Returns {α : Type} (result : Except Unit α) : Prop := ∃ value, result = .ok value

/-- What is attempted does not throw. -/
theorem attempt_returns {α : Type} (body : Except Unit α) (fallback : α) :
    Returns (attempt body fallback) := by
  cases body <;> exact ⟨_, rfl⟩

/-- Neither does a result that is known without it. -/
theorem returns_unless {α : Type} {condition : Prop} [Decidable condition] {known : α}
    {result : Except Unit α} (returns : Returns result) :
    Returns (if condition then .ok known else result) := by
  by_cases holds : condition
  · exact ⟨known, if_pos holds⟩
  · rw [if_neg holds]
    exact returns

/-- Nothing that opens a bundle throws. -/
theorem opens_return (node : NodePrimitives) (web : WebPrimitives) (key bundle : Bytes) :
    (∀ variant, Returns (node.decrypt key variant bundle) ∧ Returns (web.decrypt key variant bundle)) ∧
    (Returns (node.decryptBlob bundle key) ∧ Returns (web.decryptBlob bundle key)) ∧
    Returns (node.unwrapDek bundle key) ∧ Returns (web.unwrapDek bundle key) := by
  refine ⟨?_, ⟨?_, ?_⟩, ?_, ?_⟩
  · rintro (_ | _)
    · exact ⟨returns_unless (attempt_returns _ _), returns_unless (attempt_returns _ _)⟩
    · exact ⟨returns_unless (returns_unless (returns_unless (attempt_returns _ _))),
        returns_unless (returns_unless (returns_unless (attempt_returns _ _)))⟩
  · exact returns_unless (attempt_returns _ _)
  · exact returns_unless (attempt_returns _ _)
  · exact returns_unless (returns_unless (attempt_returns _ _))
  · exact returns_unless (returns_unless (attempt_returns _ _))

/-! ## Libraries with a checksum -/

/-- The sum of some bytes. -/
def checksum (bytes : Bytes) : UInt8 := bytes.foldr (· + ·) 0

/-- A message with the byte that balances its sum, in front of the rest of its tag. -/
def closeChecked (context : UInt8) (message : Bytes) : Bytes :=
  message ++ (-(context + checksum message)) :: List.replicate 15 0

/-- The message in front of a tag, where the sum is balanced. -/
def openChecked (context : UInt8) (closed : Bytes) : Option Bytes :=
  if 16 ≤ closed.length ∧ context + checksum closed = 0 then some (closed.take (closed.length - 16))
  else none

/-- The sum of what was put together. -/
theorem checksum_append (before after : Bytes) :
    checksum (before ++ after) = checksum before + checksum after := by
  induction before with
  | nil => exact (UInt8.zero_add _).symm
  | cons byte before inductionHypothesis =>
    calc byte + checksum (before ++ after)
        = byte + (checksum before + checksum after) := by rw [inductionHypothesis]
      _ = byte + checksum before + checksum after := (UInt8.add_assoc _ _ _).symm

/-- The sum notices an altered byte. -/
theorem checksum_altered (differs : Altered bundle altered) :
    checksum altered ≠ checksum bundle := by
  obtain ⟨before, byte, other, after, distinct, rfl, rfl⟩ := differs
  intro same
  rw [checksum_append, checksum_append, UInt8.add_right_inj] at same
  exact distinct (UInt8.add_left_inj (checksum after) |>.mp same).symm

/-- What was closed is longer by its tag. -/
theorem close_checked_length (context : UInt8) (message : Bytes) :
    (closeChecked context message).length = message.length + 16 := by
  simp [closeChecked]

/-- What was closed is balanced. -/
theorem close_checked_balanced (context : UInt8) (message : Bytes) :
    context + checksum (closeChecked context message) = 0 := by
  have zeros : checksum (List.replicate 15 0) = 0 := by decide
  have tag : checksum (-(context + checksum message) :: List.replicate 15 0) =
      -(context + checksum message) := by
    change -(context + checksum message) + checksum (List.replicate 15 0) = _
    rw [zeros, UInt8.add_zero]
  rw [closeChecked, checksum_append, tag, ← UInt8.add_assoc, UInt8.add_right_neg]

/-- Behind headers that are part of the sum, messages are opened again and alterations are noticed. -/
theorem checked_authenticated (headerLength : Nat) (context : UInt8)
    {close : Bytes → Bytes → Bytes → Prop} {openWith : Bytes → Bytes → Option Bytes}
    (closes : ∀ header message closed, header.length = headerLength → close header message closed →
      closed = closeChecked (context + checksum header) message)
    (opens : ∀ header closed, header.length = headerLength →
      openWith header closed = openChecked (context + checksum header) closed) :
    Authenticated headerLength close openWith where
  undone := by
    intro header message closed long made
    rw [opens header closed long, closes header message closed long made, openChecked,
      close_checked_length, if_pos ⟨Nat.le_add_left _ _, close_checked_balanced _ _⟩,
      Nat.add_sub_cancel, closeChecked, List.take_left]
  refused := by
    intro header message closed other altered long otherLong made differs
    rw [opens other altered otherLong]
    refine if_neg ?_
    rintro ⟨-, balanced⟩
    have before := close_checked_balanced (context + checksum header) message
    rw [← closes header message closed long made] at before
    rw [← before, UInt8.add_assoc, UInt8.add_assoc, UInt8.add_right_inj, ← checksum_append,
      ← checksum_append] at balanced
    exact checksum_altered differs balanced

/-- What the node libraries do, with a checksum for a tag. -/
def checkedNode : NodePrimitives where
  secretbox message nonce key :=
    if key.length = 32 ∧ nonce.length = 24 then .ok (closeChecked (checksum key + checksum nonce) message)
    else .error ()
  secretboxOpen box nonce key :=
    if key.length = 32 ∧ nonce.length = 24 then .ok (openChecked (checksum key + checksum nonce) box)
    else .error ()
  publicKey secretKey := secretKey
  box message nonce publicKey secretKey :=
    .ok (closeChecked (checksum publicKey + (checksum secretKey + checksum nonce)) message)
  boxOpen box nonce publicKey secretKey :=
    .ok (openChecked (checksum secretKey + (checksum publicKey + checksum nonce)) box)
  aesGcm key nonce plaintext :=
    let closed := closeChecked (checksum key + checksum nonce) plaintext
    .ok (closed.take plaintext.length, closed.drop plaintext.length)
  aesGcmOpen key nonce ciphertext authTag :=
    match openChecked (checksum key + checksum nonce) (ciphertext ++ authTag) with
    | some plaintext => .ok plaintext
    | none => .error ()

/-- What the browser's libraries do, with a checksum for a tag: they throw what the others return. -/
def checkedWeb : WebPrimitives where
  secretboxEasy := checkedNode.secretbox
  secretboxOpenEasy box nonce key :=
    match checkedNode.secretboxOpen box nonce key with
    | .ok (some message) => .ok (some message)
    | _ => .error ()
  publicKey := checkedNode.publicKey
  boxEasy := checkedNode.box
  boxOpenEasy box nonce publicKey secretKey :=
    match checkedNode.boxOpen box nonce publicKey secretKey with
    | .ok (some message) => .ok (some message)
    | _ => .error ()
  subtleEncrypt key nonce plaintext := .ok (closeChecked (checksum key + checksum nonce) plaintext)
  subtleDecrypt key nonce ciphertextAndTag :=
    match openChecked (checksum key + checksum nonce) ciphertextAndTag with
    | some plaintext => .ok plaintext
    | none => .error ()

/-- What is thrown in place of null is not opened either. -/
theorem opened_thrown (result : Except Unit (Option Bytes)) :
    opened (match result with
      | .ok (some message) => .ok (some message)
      | _ => .error ()) = opened result := by
  rcases result with _ | _ | _ <;> rfl

/-- What was opened, where nothing found is thrown. -/
theorem thrown_to_option (found : Option Bytes) :
    (match found with
      | some plaintext => (.ok plaintext : Except Unit Bytes)
      | none => .error ()).toOption = found := by
  cases found <;> rfl

/-- The libraries with a checksum agree, undo what they did and refuse what was altered. -/
theorem checked_interoperable : Interoperable checkedNode checkedWeb where
  secretbox key nonce message :=
    ⟨_, if_pos ⟨key.sized, nonce.sized⟩, if_pos ⟨key.sized, nonce.sized⟩, close_checked_length _ _⟩
  secretboxOpen key nonce closed := opened_thrown _
  secretboxAuthenticated key := by
    refine checked_authenticated 24 (checksum key.bytes) ?_ ?_
    · intro header message closed long made
      have closing : checkedNode.secretbox message header key.bytes = _ := if_pos ⟨key.sized, long⟩
      exact (Except.ok.inj (closing.symm.trans made)).symm
    · intro header closed long
      exact congrArg opened (if_pos ⟨key.sized, long⟩)
  publicKey secretKey := ⟨secretKey.sized, rfl⟩
  box recipient ephemeral nonce message := ⟨_, rfl, rfl⟩
  boxOpen sender recipient nonce closed := opened_thrown _
  boxAuthenticated recipient := by
    refine checked_authenticated (32 + 24) (checksum recipient.bytes) ?_ ?_
    · rintro header message closed - ⟨ephemeral, nonce, rfl, made⟩
      rw [checksum_append]
      exact (Except.ok.inj made).symm
    · intro header closed long
      have whole : checksum header = checksum (header.take 32) + checksum (header.drop 32) := by
        rw [← checksum_append, List.take_append_drop]
      rw [whole]
      rfl
  aesGcm key nonce plaintext := by
    refine ⟨_, _, rfl, ?_, ?_⟩
    · rw [List.length_drop, close_checked_length, Nat.add_sub_cancel_left]
    · rw [List.take_append_drop]
      rfl
  aesGcmOpen key nonce ciphertext authTag := rfl
  aesGcmAuthenticated key := by
    refine checked_authenticated 12 (checksum key.bytes) ?_ ?_
    · intro header message closed _ made
      exact (Except.ok.inj made).symm
    · intro header closed _
      exact thrown_to_option _

/-! ## Interoperation -/

end Kvy.Crypto
