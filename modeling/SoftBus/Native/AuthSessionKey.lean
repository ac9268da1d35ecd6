import SoftBus.Native.ProxyConn

/-!
# Session keys of authenticated devices

Model of `auth_sessionkey.c`.  The keys are kept in one list, newest first, and are looked
up by a 32-bit number, the low half of the id of the authentication that agreed on them.
-/

namespace SoftBus.Native

/-- `AuthSideFlag` of an authentication. -/
inductive AuthSideFlag where
  | client
  | server
deriving Repr, DecidableEq

/-- `SessionKeyList`.  `owner` is not in the source: it tells for which authentication the
    key was stored. -/
structure SessionKey where
  type : ConnectType
  side : AuthSideFlag
  seq : Int32
  deviceKey : List UInt8
  sessionKey : List UInt8
  owner : ℕ
deriving Repr, DecidableEq

/-- `MAX_KEY_LIST_SIZE` -/
def maxKeyListSize : ℕ := 20

/-- `SESSION_KEY_LENGTH` -/
def sessionKeyLength : ℕ := 32

/-- A key that does not fit is not stored; the oldest key goes when the list is full. -/
def authSetLocalSessionKey (key : SessionKey) (keys : List SessionKey) : List SessionKey :=
  if sessionKeyLength < key.sessionKey.length then keys
  else if (key :: keys).length = maxKeyListSize then (key :: keys).dropLast
  else key :: keys

section
variable (seq : Int32) (keys : List SessionKey)

def authIsSeqInKeyList : Bool := keys.any (·.seq = seq)

def authGetSessionKeyBySeq : Option SessionKey :=
  keys.find? (·.seq = seq)

/-- All keys with the number go. -/
def authClearSessionKeyBySeq : List SessionKey :=
  keys.filter (·.seq ≠ seq)

end

/-! ## Encryption -/

/-- `ENCRYPT_OVER_HEAD_LEN` -/
def encryptOverHeadLen : ℕ := 32

/-- What `AuthEncryptBySeq` gives: the side of the key, its number, which stands before the
    cipher text, and the data encrypted with `key`. -/
structure SeqCipher where
  side : AuthSideFlag
  seq : Int32
  key : SessionKey
  data : List UInt8
deriving Repr, DecidableEq

def authEncryptBySeq (seq : Int32) (data : List UInt8) (bufLen : ℕ) (keys : List SessionKey) :
    Except TransErr SeqCipher :=
  if bufLen < (data.length + encryptOverHeadLen) % 2 ^ 32 then .error .invalidParam
  else
    match authGetSessionKeyBySeq seq keys with
    | none => .error .encryptErr
    | some key => .ok ⟨key.side, key.seq, key, data⟩

end SoftBus.Native
