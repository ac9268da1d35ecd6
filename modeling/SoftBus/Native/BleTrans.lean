import SoftBus.ForStd.PosFile
import SoftBus.Native.ProxySlice

/-!
# Fragments of the BLE connections

Model of `softbus_ble_trans_manager.c`.  A message goes over a BLE connection in fragments
that fit its MTU, each behind a head of 16 bytes; the receiver collects the fragments of a
sequence number in one of three caches of the connection.  `bleOnReceive` is
what the GATT callbacks do with a packet: they hand a complete message on and then free its
cache.
-/

namespace SoftBus.Native
open Function

/-- `MAX_DATA_LEN` -/
def maxDataLen : UInt32 := 4096

/-- `MTU_HEADER_SIZE` -/
def mtuHeaderSize : UInt32 := 3

structure BleTransHeader where
  seq : UInt32
  size : UInt32
  offset : UInt32
  total : UInt32
deriving Repr, DecidableEq

/-- `sizeof(BleTransHeader)` -/
def bleTransHeaderLen : UInt32 := 16

/-! ## Sending -/

/-- The bytes of a head, each word with its high byte first. -/
def packBleTransHeader (header : BleTransHeader) : List UInt8 :=
  Bytes.toBE 4 header.seq.toNat ++ (Bytes.toBE 4 header.size.toNat ++
    (Bytes.toBE 4 header.offset.toNat ++ Bytes.toBE 4 header.total.toNat))

/-- The loop of `BleTransSend` over what is left of the data; `halSend i` is what `BleHalSend`
    answers for packet `i`.  A message has at most as many packets as bytes. -/
def bleTransSendLoop (seq len : UInt32) (dataLenMax : ℕ) (halSend : ℕ → TransErr) :
    ℕ → ℕ → List UInt8 → ℕ → TransErr × List (List UInt8)
  | 0, _, _, _ => (.ok, [])
  | fuel + 1, i, sendData, offset =>
    if sendData.length = 0 then
      (.ok, [])
    else
      let sendLength := min sendData.length dataLenMax
      let header : BleTransHeader := ⟨seq, .ofNat sendLength, .ofNat offset, len⟩
      let buff := packBleTransHeader header ++ sendData.take sendLength
      if memcpyS sendLength (sendData.take sendLength) then
        match halSend i with
        | .ok =>
          let (ret, sent) := bleTransSendLoop seq len dataLenMax halSend fuel (i + 1)
            (sendData.drop sendLength) (offset + sendLength)
          (ret, buff :: sent)
        | ret => (ret, [])
      else
        (.erange, [])

/-- The packets of a message. -/
def bleTransSend (mtu : Int32) (data : List UInt8) (seq : Int32) (halSend : ℕ → TransErr) :
    TransErr × List (List UInt8) :=
  let dataLenMax := mtu.toUInt32 - mtuHeaderSize - bleTransHeaderLen
  bleTransSendLoop seq.toUInt32 (.ofNat data.length) dataLenMax.toNat halSend data.length 0 data 0

/-! ## Receiving -/

/-- The word at `off`, high byte first. -/
def bigWordAt (value : List UInt8) (off : ℕ) : UInt32 :=
  .ofNat (Bytes.ofBE ((value.drop off).take 4))

def readBleTransHeader (value : List UInt8) : BleTransHeader :=
  ⟨bigWordAt value 0, bigWordAt value 4, bigWordAt value 8, bigWordAt value 12⟩

/-- The head of a packet, if its lengths fit together. -/
def getTransHeader (value : List UInt8) : Option BleTransHeader :=
  let header := readBleTransHeader value
  if header.size ≠ .ofNat value.length - bleTransHeaderLen ∨
      header.total < header.size + header.offset ∨ header.total > maxDataLen then
    none
  else
    some header

/-- `BleRecvCache`; `cache` is the buffer of 4096 bytes, if there is one. -/
structure BleRecvCache where
  isUsed : Bool
  seq : UInt32
  currentSize : UInt32
  cache : Option (List UInt8)
deriving Repr, DecidableEq

/-- The caches of a connection. -/
abbrev RecvCaches := Fin 3 → BleRecvCache

section
variable (recvCache : RecvCaches)

/-- The cache for a sequence number, with an unused one if it has none. -/
def findAvailableCacheIndex (seq : UInt32) : Option (Fin 3 × RecvCaches) :=
  match (List.finRange 3).find? fun i => (recvCache i).isUsed ∧ (recvCache i).seq = seq with
  | some i => some (i, recvCache)
  | none =>
    match (List.finRange 3).find? fun i => !(recvCache i).isUsed with
    | none => none
    | some i =>
      let cache := (recvCache i).cache.getD (List.replicate maxDataLen.toNat 0)
      some (i, update recvCache i ⟨true, seq, 0, some cache⟩)

/-- `BleTransRecv`: the message that is complete with this packet, and the cache it is in. -/
def bleTransRecv (value : List UInt8) : Option (List UInt8 × Option (Fin 3)) × RecvCaches :=
  match getTransHeader value with
  | none => (none, recvCache)
  | some header =>
    let data := value.drop bleTransHeaderLen.toNat
    if header.size = header.total then
      (some (data, none), recvCache)
    else
      match findAvailableCacheIndex recvCache header.seq with
      | none => (none, recvCache)
      | some (i, recvCache) =>
        let node := recvCache i
        if memcpyS (maxDataLen - header.offset).toNat data then
          let cache := PosFile.pwrite 0 (node.cache.getD []) header.offset.toNat data
          let node := { node with
            cache := some cache, currentSize := node.currentSize + header.size }
          let recvCache := update recvCache i node
          if node.currentSize = header.total then
            (some (cache.take header.total.toNat, some i), recvCache)
          else
            (none, recvCache)
        else
          (none, update recvCache i { node with isUsed := false })

def bleTransCacheFree (i : Fin 3) : RecvCaches :=
  update recvCache i { recvCache i with isUsed := false, cache := none }

/-- What the GATT callbacks do with a packet. -/
def bleOnReceive (value : List UInt8) : Option (List UInt8) × RecvCaches :=
  match bleTransRecv recvCache value with
  | (none, recvCache) => (none, recvCache)
  | (some (message, none), recvCache) => (some message, recvCache)
  | (some (message, some i), recvCache) => (some message, bleTransCacheFree recvCache i)

end

/-- The packets that come to a connection, each with what it completes. -/
def bleOnReceiveAll (recvCache : RecvCaches) : List (List UInt8) → List (List UInt8 × Option (List UInt8))
  | [] => []
  | value :: values =>
    let (message, recvCache) := bleOnReceive recvCache value
    (value, message) :: bleOnReceiveAll recvCache values

end SoftBus.Native
