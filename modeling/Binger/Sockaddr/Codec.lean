import Binger.Error
import Binger.Foundation.Bytes

/-!
# Socket addresses and their C layout

`SocketAddr` is the Rust enum.  `encodeSockaddr` and `decodeSockaddr` go
through the memory layout of `sockaddr_in` and `sockaddr_in6`: every field is a
native store at its offset, so both host byte orders are covered by one text.
The Unix and the Windows copies of the codec differ in the value of `AF_INET6`
and, on macOS, in the first field, which is split into a length byte, left at
zero by the code, and a one-byte family.
-/

namespace Binger

open Binger.Foundation

abbrev Ipv4Addr := { octets : List UInt8 // octets.length = 4 }

def Ipv4Addr.loopback : Ipv4Addr := ⟨[127, 0, 0, 1], rfl⟩

abbrev Ipv6Addr := { octets : List UInt8 // octets.length = 16 }

inductive SocketAddr where
  | v4 (ip : Ipv4Addr) (port : UInt16)
  | v6 (ip : Ipv6Addr) (port : UInt16) (flowinfo scopeId : UInt32)
  deriving DecidableEq

/-- `0.0.0.0:0`, the answer of the decoder for anything it cannot read. -/
def SocketAddr.unspecified : SocketAddr := .v4 ⟨[0, 0, 0, 0], rfl⟩ 0

namespace Sockaddr

inductive TargetOs where
  | linux
  | macos
  | windows
  deriving DecidableEq, Repr

structure Host where
  os : TargetOs
  order : ByteOrder
  deriving DecidableEq, Repr

def afInet : Nat := 2

def afInet6 : TargetOs → Nat
  | .linux => 10
  | .macos => 30
  | .windows => 23

abbrev Storage := { bytes : List UInt8 // bytes.length = 128 }

def zeroedStorage : Storage := ⟨List.replicate 128 0, by simp⟩

/-- The two bytes in front of the port: `sin_family`, or `sin_len` and
`sin_family` on macOS. -/
def familyField (host : Host) (family : Nat) : List UInt8 :=
  match host.os with
  | .macos => [0, UInt8.ofNat family]
  | .linux | .windows => host.order.store 2 family

@[simp] theorem familyField_length (host : Host) (family : Nat) :
    (familyField host family).length = 2 := by
  unfold familyField
  cases host.os <;> simp

def ssFamily (host : Host) (storage : List UInt8) : Nat :=
  match host.os with
  | .macos => ((storage.drop 1).headD 0).toNat
  | .linux | .windows => host.order.load (storage.take 2)

structure SockaddrIn where
  sinFamily : Nat
  sinPort : Nat
  sinAddr : Nat
  sinZero : { bytes : List UInt8 // bytes.length = 8 }

structure SockaddrIn6 where
  sin6Family : Nat
  sin6Port : Nat
  sin6Flowinfo : Nat
  sin6Addr : Ipv6Addr
  sin6ScopeId : Nat

def SockaddrIn.bytes (host : Host) (raw : SockaddrIn) : List UInt8 :=
  familyField host raw.sinFamily ++ host.order.store 2 raw.sinPort ++
    host.order.store 4 raw.sinAddr ++ raw.sinZero.1

def SockaddrIn6.bytes (host : Host) (raw : SockaddrIn6) : List UInt8 :=
  familyField host raw.sin6Family ++ host.order.store 2 raw.sin6Port ++
    host.order.store 4 raw.sin6Flowinfo ++ raw.sin6Addr.1 ++
    host.order.store 4 raw.sin6ScopeId

@[simp] theorem SockaddrIn.bytes_length (host : Host) (raw : SockaddrIn) :
    (raw.bytes host).length = 16 := by
  simp [bytes, raw.sinZero.2]

@[simp] theorem SockaddrIn6.bytes_length (host : Host) (raw : SockaddrIn6) :
    (raw.bytes host).length = 28 := by
  simp [bytes, raw.sin6Addr.2]

def Storage.write (bytes : List UInt8) (h : bytes.length ≤ 128)
    (storage : Storage) : Storage :=
  ⟨writePrefix bytes storage.1, by
    rw [writePrefix_length (by rw [storage.2]; exact h), storage.2]⟩

/-! ## The codec -/

def encodeSockaddr (host : Host) (addr : SocketAddr) (storage : Storage) :
    Storage × Nat :=
  match addr with
  | .v4 ip port =>
      let raw : SockaddrIn :=
        { sinFamily := afInet
          sinPort := host.order.toBe 2 port.toNat
          sinAddr := host.order.load ip.1
          sinZero := ⟨List.replicate 8 0, by simp⟩ }
      (storage.write (raw.bytes host) (by simp), 16)
  | .v6 ip port flowinfo scopeId =>
      let raw : SockaddrIn6 :=
        { sin6Family := afInet6 host.os
          sin6Port := host.order.toBe 2 port.toNat
          sin6Flowinfo := flowinfo.toNat
          sin6Addr := ip
          sin6ScopeId := scopeId.toNat }
      (storage.write (raw.bytes host) (by simp), 28)

def field (storage : List UInt8) (offset width : Nat) : List UInt8 :=
  (storage.drop offset).take width

def ipv4OfWord (word : Nat) : Ipv4Addr :=
  ⟨ByteOrder.big.store 4 word, by simp⟩

theorem field_length {storage : List UInt8} {offset width : Nat}
    (h : offset + width ≤ storage.length) :
    (field storage offset width).length = width := by
  simp [field]
  omega

def decodeSockaddr (host : Host) (storage : Storage) (len : Nat) :
    SocketAddr :=
  if len = 0 then .unspecified
  else if ssFamily host storage.1 = afInet then
    .v4
      (ipv4OfWord (host.order.toBe 4 (host.order.load (field storage.1 4 4))))
      (UInt16.ofNat (host.order.toBe 2 (host.order.load (field storage.1 2 2))))
  else if ssFamily host storage.1 = afInet6 host.os then
    .v6
      ⟨field storage.1 8 16, field_length (by rw [storage.2]; omega)⟩
      (UInt16.ofNat (host.order.toBe 2 (host.order.load (field storage.1 2 2))))
      (UInt32.ofNat (host.order.load (field storage.1 4 4)))
      (UInt32.ofNat (host.order.load (field storage.1 24 4)))
  else .unspecified

/-! ## Reading back what was written -/

theorem field_skip {before rest : List UInt8} (skipped : Nat)
    (h : before.length = skipped) (offset width : Nat) :
    field (before ++ rest) (skipped + offset) width =
      field rest offset width := by
  subst h
  simp [field, ← List.drop_drop]

theorem field_head {middle rest : List UInt8} {width : Nat}
    (h : middle.length = width) : field (middle ++ rest) 0 width = middle := by
  subst h
  simp [field]

theorem ssFamily_append (host : Host) {family : Nat} (hfamily : family < 256)
    (rest : List UInt8) :
    ssFamily host (familyField host family ++ rest) = family := by
  obtain ⟨os, order⟩ := host
  cases os with
  | macos => simpa [ssFamily, familyField] using Nat.mod_eq_of_lt hfamily
  | linux | windows =>
      change order.load (field (order.store 2 family ++ rest) 0 2) = family
      rw [field_head (by simp)]
      exact order.load_store_of_lt (by omega)

theorem SockaddrIn.field_sinPort (host : Host) (raw : SockaddrIn)
    (rest : List UInt8) :
    field (raw.bytes host ++ rest) 2 2 = host.order.store 2 raw.sinPort := by
  simp only [bytes, List.append_assoc]
  exact (field_skip 2 (by simp) 0 2).trans (field_head (by simp))

theorem SockaddrIn.field_sinAddr (host : Host) (raw : SockaddrIn)
    (rest : List UInt8) :
    field (raw.bytes host ++ rest) 4 4 = host.order.store 4 raw.sinAddr := by
  simp only [bytes, List.append_assoc]
  exact (field_skip 2 (by simp) 2 4).trans
    ((field_skip 2 (by simp) 0 4).trans (field_head (by simp)))

theorem SockaddrIn6.field_sin6Port (host : Host) (raw : SockaddrIn6)
    (rest : List UInt8) :
    field (raw.bytes host ++ rest) 2 2 = host.order.store 2 raw.sin6Port := by
  simp only [bytes, List.append_assoc]
  exact (field_skip 2 (by simp) 0 2).trans (field_head (by simp))

theorem SockaddrIn6.field_sin6Flowinfo (host : Host) (raw : SockaddrIn6)
    (rest : List UInt8) :
    field (raw.bytes host ++ rest) 4 4 =
      host.order.store 4 raw.sin6Flowinfo := by
  simp only [bytes, List.append_assoc]
  exact (field_skip 2 (by simp) 2 4).trans
    ((field_skip 2 (by simp) 0 4).trans (field_head (by simp)))

theorem SockaddrIn6.field_sin6Addr (host : Host) (raw : SockaddrIn6)
    (rest : List UInt8) :
    field (raw.bytes host ++ rest) 8 16 = raw.sin6Addr.1 := by
  simp only [bytes, List.append_assoc]
  exact (field_skip 2 (by simp) 6 16).trans
    ((field_skip 2 (by simp) 4 16).trans
      ((field_skip 4 (by simp) 0 16).trans
        (field_head raw.sin6Addr.2)))

theorem SockaddrIn6.field_sin6ScopeId (host : Host) (raw : SockaddrIn6)
    (rest : List UInt8) :
    field (raw.bytes host ++ rest) 24 4 =
      host.order.store 4 raw.sin6ScopeId := by
  simp only [bytes, List.append_assoc]
  exact (field_skip 2 (by simp) 22 4).trans
    ((field_skip 2 (by simp) 20 4).trans
      ((field_skip 4 (by simp) 16 4).trans
        ((field_skip 16 raw.sin6Addr.2 0 4).trans
          (field_head (by simp)))))

theorem SockaddrIn.ssFamily_bytes (host : Host) (raw : SockaddrIn)
    (h : raw.sinFamily < 256) (rest : List UInt8) :
    ssFamily host (raw.bytes host ++ rest) = raw.sinFamily := by
  simp only [bytes, List.append_assoc]
  exact ssFamily_append host h _

theorem SockaddrIn6.ssFamily_bytes (host : Host) (raw : SockaddrIn6)
    (h : raw.sin6Family < 256) (rest : List UInt8) :
    ssFamily host (raw.bytes host ++ rest) = raw.sin6Family := by
  simp only [bytes, List.append_assoc]
  exact ssFamily_append host h _

theorem port_roundtrip (order : ByteOrder) (port : UInt16) :
    UInt16.ofNat (order.toBe 2
      (order.load (order.store 2 (order.toBe 2 port.toNat)))) = port := by
  have hswap := order.toBe_load (order.store 2 (order.toBe 2 port.toNat))
  rw [ByteOrder.store_length] at hswap
  rw [hswap, ByteOrder.store_toBe,
    ByteOrder.load_store_of_lt _ (by simpa using port.toNat_lt)]
  simp

theorem word_roundtrip (order : ByteOrder) (word : UInt32) :
    UInt32.ofNat (order.load (order.store 4 word.toNat)) = word := by
  rw [ByteOrder.load_store_of_lt _ (by simpa using word.toNat_lt)]
  simp

theorem store_load_octets (order : ByteOrder) (ip : Ipv4Addr) :
    order.store 4 (order.load ip.1) = ip.1 := by
  have h := order.store_load ip.1
  rwa [ip.2] at h

theorem ipv4_roundtrip (order : ByteOrder) (ip : Ipv4Addr) :
    ipv4OfWord (order.toBe 4 (order.load ip.1)) = ip := by
  have hswap := order.toBe_load ip.1
  rw [ip.2] at hswap
  apply Subtype.ext
  change ByteOrder.big.store 4 (order.toBe 4 (order.load ip.1)) = ip.1
  rw [hswap]
  exact store_load_octets .big ip

theorem afInet6_lt (os : TargetOs) : afInet6 os < 256 := by
  cases os <;> decide

theorem afInet6_ne_afInet (os : TargetOs) : afInet6 os ≠ afInet := by
  cases os <;> decide

theorem decodeSockaddr_in {host : Host} {storage : Storage} {len : Nat}
    (hlen : len ≠ 0) (hfamily : ssFamily host storage.1 = afInet) :
    decodeSockaddr host storage len =
      .v4 (ipv4OfWord
          (host.order.toBe 4 (host.order.load (field storage.1 4 4))))
        (UInt16.ofNat
          (host.order.toBe 2 (host.order.load (field storage.1 2 2)))) := by
  rw [decodeSockaddr, if_neg hlen, if_pos hfamily]

theorem decodeSockaddr_in6 {host : Host} {storage : Storage} {len : Nat}
    (hlen : len ≠ 0) (hfamily : ssFamily host storage.1 = afInet6 host.os) :
    decodeSockaddr host storage len =
      .v6 ⟨field storage.1 8 16, field_length (by rw [storage.2]; omega)⟩
        (UInt16.ofNat
          (host.order.toBe 2 (host.order.load (field storage.1 2 2))))
        (UInt32.ofNat (host.order.load (field storage.1 4 4)))
        (UInt32.ofNat (host.order.load (field storage.1 24 4))) := by
  rw [decodeSockaddr, if_neg hlen,
    if_neg (by rw [hfamily]; exact afInet6_ne_afInet host.os), if_pos hfamily]

theorem decodeSockaddr_encodeSockaddr (host : Host) (addr : SocketAddr)
    (storage : Storage) :
    decodeSockaddr host (encodeSockaddr host addr storage).1
      (encodeSockaddr host addr storage).2 = addr := by
  cases addr with
  | v4 ip port =>
      have hfamily : ssFamily host
          (encodeSockaddr host (.v4 ip port) storage).1.1 = afInet :=
        SockaddrIn.ssFamily_bytes host _ (show afInet < 256 by decide) _
      rw [decodeSockaddr_in (by simp [encodeSockaddr]) hfamily]
      simp only [encodeSockaddr, Storage.write, writePrefix,
        SockaddrIn.field_sinPort, SockaddrIn.field_sinAddr,
        port_roundtrip, store_load_octets, ipv4_roundtrip]
  | v6 ip port flowinfo scopeId =>
      have hfamily : ssFamily host
          (encodeSockaddr host (.v6 ip port flowinfo scopeId) storage).1.1 =
            afInet6 host.os :=
        SockaddrIn6.ssFamily_bytes host _ (afInet6_lt host.os) _
      rw [decodeSockaddr_in6 (by simp [encodeSockaddr]) hfamily]
      simp only [encodeSockaddr, Storage.write, writePrefix,
        SockaddrIn6.field_sin6Port, SockaddrIn6.field_sin6Flowinfo,
        SockaddrIn6.field_sin6Addr, SockaddrIn6.field_sin6ScopeId,
        port_roundtrip, word_roundtrip]

theorem decodeSockaddr_len {host : Host} {storage : Storage} {len len' : Nat}
    (h : len ≠ 0) (h' : len' ≠ 0) :
    decodeSockaddr host storage len = decodeSockaddr host storage len' := by
  simp only [decodeSockaddr, if_neg h, if_neg h']

theorem encodeSockaddr_len (host : Host) (addr : SocketAddr)
    (storage storage' : Storage) :
    (encodeSockaddr host addr storage').2 =
      (encodeSockaddr host addr storage).2 := by
  cases addr <;> rfl

theorem encodeSockaddr_len_ne_zero (host : Host) (addr : SocketAddr)
    (storage : Storage) : (encodeSockaddr host addr storage).2 ≠ 0 := by
  cases addr <;> simp [encodeSockaddr]

theorem decodeSockaddr_zeroedStorage (host : Host) (len : Nat) :
    decodeSockaddr host zeroedStorage len = .unspecified := by
  have hfamily : ssFamily host zeroedStorage.1 = 0 := by
    obtain ⟨os, order⟩ := host
    cases os <;> cases order <;> decide
  unfold decodeSockaddr
  rw [hfamily]
  cases host.os <;> simp [afInet, afInet6]

end Sockaddr

end Binger
