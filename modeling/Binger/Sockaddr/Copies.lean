import Binger.Sockaddr.Codec

/-!
# The three copies of the codec

Windows has the codec twice: next to the Unix one and inside the backend, where
the encoder returns the length through a reference.  All copies satisfy the
same laws, in both directions and for both byte orders.
-/

namespace Binger.Sockaddr

open Binger.Foundation

/-! ## The Windows copies -/

theorem zeroes_length : (List.replicate 8 (0 : UInt8)).length = 8 := rfl

theorem sin6Addr_length (storage : Storage) :
    (field storage.1 8 16).length = 16 := by
  apply field_length
  rw [storage.2]
  omega

namespace WindowsImpl

def encodeSockaddr (order : ByteOrder) (addr : SocketAddr)
    (storage : Storage) : Storage × Int :=
  match addr with
  | .v4 ip port =>
      let sin : SockaddrIn :=
        { sinFamily := afInet
          sinPort := order.toBe 2 port.toNat
          sinAddr := order.load ip.1
          sinZero := ⟨List.replicate 8 0, zeroes_length⟩ }
      (storage.write (sin.bytes ⟨.windows, order⟩) (by simp), 16)
  | .v6 ip port flowinfo scopeId =>
      let sin6 : SockaddrIn6 :=
        { sin6Family := afInet6 .windows
          sin6Port := order.toBe 2 port.toNat
          sin6Flowinfo := flowinfo.toNat
          sin6Addr := ip
          sin6ScopeId := scopeId.toNat }
      (storage.write (sin6.bytes ⟨.windows, order⟩) (by simp), 28)

def decodeSockaddr (order : ByteOrder) (storage : Storage) (len : Int) :
    SocketAddr :=
  if len = 0 then .unspecified
  else if ssFamily ⟨.windows, order⟩ storage.1 = afInet then
    .v4
      (ipv4OfWord (order.toBe 4 (order.load (field storage.1 4 4))))
      (UInt16.ofNat (order.toBe 2 (order.load (field storage.1 2 2))))
  else if ssFamily ⟨.windows, order⟩ storage.1 = afInet6 .windows then
    .v6
      ⟨field storage.1 8 16, sin6Addr_length storage⟩
      (UInt16.ofNat (order.toBe 2 (order.load (field storage.1 2 2))))
      (UInt32.ofNat (order.load (field storage.1 4 4)))
      (UInt32.ofNat (order.load (field storage.1 24 4)))
  else .unspecified

end WindowsImpl

namespace WindowsBackend

/-- `namelen` is written and never read. -/
def encodeAddrInto (order : ByteOrder) (addr : SocketAddr)
    (storage : Storage) (_namelen : Int) : Storage × Int :=
  match addr with
  | .v4 ip port =>
      let sin : SockaddrIn :=
        { sinFamily := afInet
          sinPort := order.toBe 2 port.toNat
          sinAddr := order.load ip.1
          sinZero := ⟨List.replicate 8 0, zeroes_length⟩ }
      (storage.write (sin.bytes ⟨.windows, order⟩) (by simp), 16)
  | .v6 ip port flowinfo scopeId =>
      let sin6 : SockaddrIn6 :=
        { sin6Family := afInet6 .windows
          sin6Port := order.toBe 2 port.toNat
          sin6Flowinfo := flowinfo.toNat
          sin6Addr := ip
          sin6ScopeId := scopeId.toNat }
      (storage.write (sin6.bytes ⟨.windows, order⟩) (by simp), 28)

def decodeSockaddr (order : ByteOrder) (storage : Storage) (namelen : Int) :
    SocketAddr :=
  if namelen = 0 then .unspecified
  else if ssFamily ⟨.windows, order⟩ storage.1 = afInet then
    .v4
      (ipv4OfWord (order.toBe 4 (order.load (field storage.1 4 4))))
      (UInt16.ofNat (order.toBe 2 (order.load (field storage.1 2 2))))
  else if ssFamily ⟨.windows, order⟩ storage.1 = afInet6 .windows then
    .v6
      ⟨field storage.1 8 16, sin6Addr_length storage⟩
      (UInt16.ofNat (order.toBe 2 (order.load (field storage.1 2 2))))
      (UInt32.ofNat (order.load (field storage.1 4 4)))
      (UInt32.ofNat (order.load (field storage.1 24 4)))
  else .unspecified

end WindowsBackend

theorem WindowsImpl.encodeSockaddr_eq (order : ByteOrder) (addr : SocketAddr)
    (storage : Storage) :
    WindowsImpl.encodeSockaddr order addr storage =
      ((Sockaddr.encodeSockaddr ⟨.windows, order⟩ addr storage).1,
        ((Sockaddr.encodeSockaddr ⟨.windows, order⟩ addr storage).2 :
          Int)) := by
  cases addr <;> rfl

theorem WindowsImpl.decodeSockaddr_eq (order : ByteOrder) (storage : Storage)
    (len : Int) :
    WindowsImpl.decodeSockaddr order storage len =
      Sockaddr.decodeSockaddr ⟨.windows, order⟩ storage len.natAbs := by
  by_cases h : len = 0
  · subst h
    rfl
  · have hnat : len.natAbs ≠ 0 := Int.natAbs_ne_zero.mpr h
    rw [WindowsImpl.decodeSockaddr, Sockaddr.decodeSockaddr, if_neg h,
      if_neg hnat]

theorem WindowsBackend.encodeAddrInto_eq (order : ByteOrder)
    (addr : SocketAddr) (storage : Storage) (namelen : Int) :
    WindowsBackend.encodeAddrInto order addr storage namelen =
      WindowsImpl.encodeSockaddr order addr storage := by
  cases addr <;> rfl

theorem WindowsBackend.decodeSockaddr_eq (order : ByteOrder)
    (storage : Storage) (namelen : Int) :
    WindowsBackend.decodeSockaddr order storage namelen =
      WindowsImpl.decodeSockaddr order storage namelen := rfl

/-! ## The laws -/

def portOf : SocketAddr → UInt16
  | .v4 _ port | .v6 _ port _ _ => port

def ipOffset : SocketAddr → Nat
  | .v4 .. => 4
  | .v6 .. => 8

def ipOctets : SocketAddr → List UInt8
  | .v4 ip _ => ip.1
  | .v6 ip _ _ _ => ip.1

/-- The laws of a codec with the layout of `host`; `Len` is the type of the
length. -/
structure Lawful {Len : Type} [Zero Len] (host : Host)
    (encode : SocketAddr → Storage → Storage × Len)
    (decode : Storage → Len → SocketAddr) : Prop where
  roundtrip : ∀ addr storage,
    decode (encode addr storage).1 (encode addr storage).2 = addr
  port_at : ∀ addr storage,
    field (encode addr storage).1.1 2 2 =
      ByteOrder.big.store 2 (portOf addr).toNat
  ip_at : ∀ addr storage,
    field (encode addr storage).1.1 (ipOffset addr) (ipOctets addr).length =
      ipOctets addr
  reencode_in : ∀ storage storage' len, len ≠ 0 →
    ssFamily host storage.1 = afInet →
    field storage.1 8 8 = List.replicate 8 0 →
    (encode (decode storage len) storage').1.1.take 16 = storage.1.take 16
  reencode_in6 : ∀ storage storage' len, len ≠ 0 →
    ssFamily host storage.1 = afInet6 host.os →
    (encode (decode storage len) storage').1.1.take 28 = storage.1.take 28

/-! ## Writing back what was read -/

theorem familyField_ssFamily {host : Host} (hos : host.os ≠ .macos)
    (storage : Storage) :
    familyField host (ssFamily host storage.1) = storage.1.take 2 := by
  have hlength : (storage.1.take 2).length = 2 := by simp [storage.2]
  have h := host.order.store_load (storage.1.take 2)
  rw [hlength] at h
  unfold familyField ssFamily
  cases hcase : host.os with
  | macos => exact absurd hcase hos
  | linux | windows => exact h

theorem store_port {order : ByteOrder} {bytes : List UInt8}
    (hlength : bytes.length = 2) :
    order.store 2 (order.toBe 2
      (UInt16.ofNat (order.toBe 2 (order.load bytes))).toNat) = bytes := by
  have hswap := order.toBe_load bytes
  have hlt := ByteOrder.big.load_lt bytes
  have hback := ByteOrder.big.store_load bytes
  rw [hlength] at hswap hlt hback
  rw [hswap, ByteOrder.store_toBe, UInt16.toNat_ofNat_of_lt' hlt, hback]

theorem store_word {order : ByteOrder} {bytes : List UInt8}
    (hlength : bytes.length = 4) :
    order.store 4 (UInt32.ofNat (order.load bytes)).toNat = bytes := by
  have hlt := order.load_lt bytes
  have hback := order.store_load bytes
  rw [hlength] at hlt hback
  rw [UInt32.toNat_ofNat_of_lt' hlt, hback]

theorem store_ipv4 {order : ByteOrder} {bytes : List UInt8}
    (hlength : bytes.length = 4) :
    order.store 4 (order.load
      (ipv4OfWord (order.toBe 4 (order.load bytes))).1) = bytes := by
  rw [show ipv4OfWord (order.toBe 4 (order.load bytes)) = ⟨bytes, hlength⟩
    from ipv4_roundtrip order ⟨bytes, hlength⟩]
  exact store_load_octets order ⟨bytes, hlength⟩

theorem take_add_field (bytes : List UInt8) (offset width : Nat) :
    bytes.take (offset + width) =
      bytes.take offset ++ field bytes offset width :=
  List.take_add

section Laws

variable {host : Host} (hos : host.os ≠ .macos) (storage storage' : Storage)
  {len : Nat} (hlen : len ≠ 0)

include hos hlen

theorem reencode_in (hfamily : ssFamily host storage.1 = afInet)
    (hzero : field storage.1 8 8 = List.replicate 8 0) :
    (encodeSockaddr host (decodeSockaddr host storage len)
      storage').1.1.take 16 = storage.1.take 16 := by
  have hfield := familyField_ssFamily hos storage
  rw [hfamily] at hfield
  have hread : storage.1.take 16 = storage.1.take 2 ++ field storage.1 2 2 ++
      field storage.1 4 4 ++ field storage.1 8 8 := by
    rw [take_add_field storage.1 8 8, take_add_field storage.1 4 4,
      take_add_field storage.1 2 2]
  rw [decodeSockaddr_in hlen hfamily]
  simp only [encodeSockaddr, Storage.write]
  rw [show 16 = (SockaddrIn.bytes host _).length from
    (SockaddrIn.bytes_length host _).symm, take_writePrefix,
    SockaddrIn.bytes_length, hread]
  simp only [SockaddrIn.bytes, hfield, hzero]
  rw [store_port (field_length (by rw [storage.2]; omega)),
    store_ipv4 (field_length (by rw [storage.2]; omega))]

theorem reencode_in6 (hfamily : ssFamily host storage.1 = afInet6 host.os) :
    (encodeSockaddr host (decodeSockaddr host storage len)
      storage').1.1.take 28 = storage.1.take 28 := by
  have hfield := familyField_ssFamily hos storage
  rw [hfamily] at hfield
  have hread : storage.1.take 28 = storage.1.take 2 ++ field storage.1 2 2 ++
      field storage.1 4 4 ++ field storage.1 8 16 ++ field storage.1 24 4 := by
    rw [take_add_field storage.1 24 4, take_add_field storage.1 8 16,
      take_add_field storage.1 4 4, take_add_field storage.1 2 2]
  rw [decodeSockaddr_in6 hlen hfamily]
  simp only [encodeSockaddr, Storage.write]
  rw [show 28 = (SockaddrIn6.bytes host _).length from
    (SockaddrIn6.bytes_length host _).symm, take_writePrefix,
    SockaddrIn6.bytes_length, hread]
  simp only [SockaddrIn6.bytes, hfield]
  rw [store_port (field_length (by rw [storage.2]; omega)),
    store_word (field_length (by rw [storage.2]; omega)),
    store_word (field_length (by rw [storage.2]; omega))]

end Laws

/-! ## All copies obey them -/

theorem field_port (host : Host) (addr : SocketAddr) (storage : Storage) :
    field (encodeSockaddr host addr storage).1.1 2 2 =
      ByteOrder.big.store 2 (portOf addr).toNat := by
  cases addr with
  | v4 ip port =>
      simp only [encodeSockaddr, Storage.write, writePrefix,
        SockaddrIn.field_sinPort, ByteOrder.store_toBe, portOf]
  | v6 ip port flowinfo scopeId =>
      simp only [encodeSockaddr, Storage.write, writePrefix,
        SockaddrIn6.field_sin6Port, ByteOrder.store_toBe, portOf]

theorem field_ip (host : Host) (addr : SocketAddr) (storage : Storage) :
    field (encodeSockaddr host addr storage).1.1 (ipOffset addr)
      (ipOctets addr).length = ipOctets addr := by
  cases addr with
  | v4 ip port =>
      simp only [encodeSockaddr, Storage.write, writePrefix, ipOffset,
        ipOctets, ip.2, SockaddrIn.field_sinAddr, store_load_octets]
  | v6 ip port flowinfo scopeId =>
      simp only [encodeSockaddr, Storage.write, writePrefix, ipOffset,
        ipOctets, ip.2, SockaddrIn6.field_sin6Addr]

theorem lawful_codec {host : Host} (hos : host.os ≠ .macos) :
    Lawful host (encodeSockaddr host) (decodeSockaddr host) where
  roundtrip := decodeSockaddr_encodeSockaddr host
  port_at := field_port host
  ip_at := field_ip host
  reencode_in storage storage' _ hlen := reencode_in hos storage storage' hlen
  reencode_in6 storage storage' _ hlen :=
    reencode_in6 hos storage storage' hlen

theorem lawful_windowsImpl (order : ByteOrder) :
    Lawful ⟨.windows, order⟩ (WindowsImpl.encodeSockaddr order)
      (WindowsImpl.decodeSockaddr order) := by
  have lawful := @lawful_codec ⟨.windows, order⟩ (by simp)
  constructor
  case roundtrip =>
    intro addr storage
    rw [WindowsImpl.encodeSockaddr_eq, WindowsImpl.decodeSockaddr_eq]
    exact lawful.roundtrip addr storage
  case port_at =>
    intro addr storage
    rw [WindowsImpl.encodeSockaddr_eq]
    exact lawful.port_at addr storage
  case ip_at =>
    intro addr storage
    rw [WindowsImpl.encodeSockaddr_eq]
    exact lawful.ip_at addr storage
  case reencode_in =>
    intro storage storage' len hlen
    rw [WindowsImpl.encodeSockaddr_eq, WindowsImpl.decodeSockaddr_eq]
    exact lawful.reencode_in storage storage' _ (Int.natAbs_ne_zero.mpr hlen)
  case reencode_in6 =>
    intro storage storage' len hlen
    rw [WindowsImpl.encodeSockaddr_eq, WindowsImpl.decodeSockaddr_eq]
    exact lawful.reencode_in6 storage storage' _ (Int.natAbs_ne_zero.mpr hlen)

/-- The Linux codec and both Windows codecs obey the laws under either byte
order, and the Windows codecs are the same function. -/
theorem sockaddr_codecs_lawful (order : ByteOrder) :
    Lawful ⟨.linux, order⟩ (encodeSockaddr ⟨.linux, order⟩)
      (decodeSockaddr ⟨.linux, order⟩) ∧
    Lawful ⟨.windows, order⟩ (WindowsImpl.encodeSockaddr order)
      (WindowsImpl.decodeSockaddr order) ∧
    (∀ namelen, Lawful ⟨.windows, order⟩
      (fun addr storage =>
        WindowsBackend.encodeAddrInto order addr storage namelen)
      (WindowsBackend.decodeSockaddr order)) ∧
    (∀ addr storage namelen,
      WindowsBackend.encodeAddrInto order addr storage namelen =
        WindowsImpl.encodeSockaddr order addr storage) ∧
    ∀ storage len, WindowsBackend.decodeSockaddr order storage len =
      WindowsImpl.decodeSockaddr order storage len := by
  refine ⟨lawful_codec (by simp), lawful_windowsImpl order, ?_,
    WindowsBackend.encodeAddrInto_eq order,
    WindowsBackend.decodeSockaddr_eq order⟩
  intro namelen
  have hencode : (fun addr storage =>
      WindowsBackend.encodeAddrInto order addr storage namelen) =
        WindowsImpl.encodeSockaddr order := by
    funext addr storage
    exact WindowsBackend.encodeAddrInto_eq order addr storage namelen
  have hdecode : WindowsBackend.decodeSockaddr order =
      WindowsImpl.decodeSockaddr order := by
    funext storage len
    exact WindowsBackend.decodeSockaddr_eq order storage len
  rw [hencode, hdecode]
  exact lawful_windowsImpl order

end Binger.Sockaddr
