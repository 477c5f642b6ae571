import Binger.Platform.Send

/-!
# What the send backends do to the kernel

All loops offer the same messages, one for each entry in order, up to the name
chosen for it, so each backend is described by the series of messages it offers
and by what it reports about the series.
-/

namespace Binger.Platform

open Binger.Foundation Binger.Sockaddr

/-! ## The messages of a batch -/

/-- The messages for `entries`, numbered from `i`: `route` picks the name of
each one and `cut` the bytes that are sent. -/
def outgoing (route : Nat → SendSlot → Option SocketAddr)
    (cut : SendSlot → List UInt8) (peer : Option SocketAddr)
    (entries : List SendSlot) (i : Nat) : List Sent :=
  (entries.zipIdx i).map fun (entry, k) =>
    ⟨k, cut entry, route k entry <|> peer⟩

def wholePayload (entry : SendSlot) : List UInt8 := entry.data.bytes

section Outgoing

variable (route : Nat → SendSlot → Option SocketAddr)
  (cut : SendSlot → List UInt8) (peer : Option SocketAddr)
  (entries : List SendSlot) (i : Nat)

@[simp] theorem outgoing_length :
    (outgoing route cut peer entries i).length = entries.length := by
  simp [outgoing]

@[simp] theorem outgoing_nil : outgoing route cut peer [] i = [] := rfl

theorem outgoing_cons (entry : SendSlot) :
    outgoing route cut peer (entry :: entries) i =
      ⟨i, cut entry, route i entry <|> peer⟩ ::
        outgoing route cut peer entries (i + 1) := by
  simp [outgoing]

end Outgoing

/-! ## Loops with one call for each packet -/

def perPacketResult (sent n : Nat) (script : List (Except Fault Unit)) :
    IoResult Nat :=
  match refusal .wouldBlock n script with
  | none | some .wouldBlock => .ok (sent + (granted n script).length)
  | some fault => .error fault.error

def wsaResult (sent n : Nat) (script : List (Except Fault Unit)) :
    IoResult Nat :=
  match refusal .wouldBlock n script with
  | none | some .wouldBlock => .ok (sent + (granted n script).length)
  | some fault =>
      if 0 < sent + (granted n script).length then
        .ok (sent + (granted n script).length)
      else .error fault.error

def perPacketRoute (stripped : Bool) (_ : Nat) (entry : SendSlot) :
    Option SocketAddr :=
  if stripped then none else entry.addr

def wrapped (n : Nat) (answer : Except Fault Unit × Os) : IoResult Nat × Os :=
  match answer with
  | (.ok (), os) => (.ok n, os)
  | (.error fault, os) => (.error fault.error, os)

theorem rawSend_eq (i : Nat) (data : Slice) (os : Os) :
    rawSend i data os =
      wrapped data.bytes.length (os.offer ⟨i, data.bytes, os.peer⟩) := rfl

theorem rawSendto_eq (host : Host) (i : Nat) (data : Slice) (addr : SocketAddr)
    (os : Os) :
    rawSendto host i data addr os =
      wrapped data.bytes.length (os.offer ⟨i, data.bytes, some addr⟩) := by
  have haddr := decodeSockaddr_encodeSockaddr host addr zeroedStorage
  simp only [rawSendto, haddr]
  rfl

theorem perPacketSend_cons (host : Host) (stripped : Bool) (entry : SendSlot)
    (entries : List SendSlot) (i sent : Nat) (os : Os) :
    perPacketSend host stripped (entry :: entries) i sent os =
      match os.offer ⟨i, wholePayload entry,
        perPacketRoute stripped i entry <|> os.peer⟩ with
      | (.ok (), os) =>
          perPacketSend host stripped entries (i + 1) (sent + 1) os
      | (.error fault, os) =>
          if fault = .wouldBlock then (.ok sent, os)
          else (.error fault.error, os) := by
  obtain ⟨data, addr⟩ := entry
  cases stripped <;> cases addr <;>
    simp [perPacketSend, rawSend_eq, rawSendto_eq, perPacketRoute,
      wholePayload] <;>
    generalize os.offer _ = answer <;>
    obtain ⟨answer | answer, os'⟩ := answer <;>
    simp [wrapped]

theorem perPacketSend_eq (host : Host) (stripped : Bool)
    (entries : List SendSlot) (i sent : Nat) (os : Os) :
    perPacketSend host stripped entries i sent os =
      (perPacketResult sent entries.length os.sendScript,
        os.afterOffering (outgoing (perPacketRoute stripped) wholePayload
          os.peer entries i)) := by
  induction entries generalizing i sent os with
  | nil => simp [perPacketSend, perPacketResult, Os.afterOffering]
  | cons entry entries ih =>
      rw [perPacketSend_cons, outgoing_cons]
      cases hscript : os.sendScript with
      | nil =>
          simp [Os.offer, hscript, ask, Os.afterOffering, perPacketResult,
            granted, refusal, remaining]
      | cons answer script =>
          cases answer with
          | error fault =>
              cases fault <;>
                simp [Os.offer, hscript, ask, Os.afterOffering,
                  perPacketResult, granted, refusal, remaining]
          | ok value =>
              simp only [Os.offer, hscript, ask, ih]
              simp [Os.afterOffering, hscript, perPacketResult, granted,
                refusal, remaining, Nat.add_assoc, Nat.add_comm 1]

def wsaPayload (entry : SendSlot) : List UInt8 :=
  entry.data.bytes.take (entry.data.bytes.length % 2 ^ 32)

theorem wsaSendLoop_cons (host : Host) (connected : Bool) (entry : SendSlot)
    (entries : List SendSlot) (i sent : Nat) (os : Os) :
    wsaSendLoop host connected (entry :: entries) i sent os =
      match os.offer ⟨i, wsaPayload entry,
        perPacketRoute connected i entry <|> os.peer⟩ with
      | (.ok (), os) =>
          wsaSendLoop host connected entries (i + 1) (sent + 1) os
      | (.error fault, os) =>
          if fault = .wouldBlock then (.ok sent, os)
          else if sent > 0 then (.ok sent, os)
          else (.error fault.error, os) := by
  obtain ⟨data, addr⟩ := entry
  generalize hloop : wsaSendLoop host connected (⟨data, addr⟩ :: entries) i
    sent os = loop
  cases connected <;> cases addr <;>
    simp only [wsaSendLoop, decodeSockaddr_encodeSockaddr,
      Fault.error_kind_wouldBlock] at hloop <;>
    exact hloop.symm

theorem wsaSendLoop_eq (host : Host) (connected : Bool)
    (entries : List SendSlot) (i sent : Nat) (os : Os) :
    wsaSendLoop host connected entries i sent os =
      (wsaResult sent entries.length os.sendScript,
        os.afterOffering (outgoing (perPacketRoute connected) wsaPayload
          os.peer entries i)) := by
  induction entries generalizing i sent os with
  | nil => simp [wsaSendLoop, wsaResult, Os.afterOffering]
  | cons entry entries ih =>
      rw [wsaSendLoop_cons, outgoing_cons]
      cases hscript : os.sendScript with
      | nil =>
          simp [Os.offer, hscript, ask, Os.afterOffering, wsaResult, granted,
            refusal, remaining]
      | cons answer script =>
          cases answer with
          | error fault =>
              cases fault <;> cases sent <;>
                simp [Os.offer, hscript, ask, Os.afterOffering, wsaResult,
                  granted, refusal, remaining]
          | ok value =>
              simp only [Os.offer, hscript, ask, ih]
              simp [Os.afterOffering, hscript, wsaResult, granted, refusal,
                remaining, Nat.add_assoc, Nat.add_comm 1]

/-! ## Batched calls -/

theorem messages_eq_outgoing {host : Host} {headers : SendHeaders}
    {peer : Option SocketAddr} {entries : List SendSlot}
    (route : Nat → SendSlot → Option SocketAddr)
    (hmsgs : ∀ i (hi : i < entries.length), ∃ header,
      headers.msgs[i]? = some header ∧
      headers.message host peer i header =
        ⟨i, wholePayload entries[i], route i entries[i] <|> peer⟩)
    {n : Nat} (hn : n ≤ entries.length) :
    headers.messages host peer n =
      (outgoing route wholePayload peer entries 0).take n := by
  apply List.ext_getElem?
  intro i
  by_cases hi : i < n
  · obtain ⟨header, hheader, hmessage⟩ := hmsgs i (by omega)
    simp [SendHeaders.messages, outgoing, hi, hheader,
      List.getElem?_eq_getElem (Nat.lt_of_lt_of_le hi hn), hmessage]
  · simp [SendHeaders.messages, outgoing, hi]

theorem SendHeaders.Represents.messages_eq {host : Host}
    {headers : SendHeaders} {entries : List SendSlot}
    (h : headers.Represents host entries) (peer : Option SocketAddr)
    {n : Nat} (hn : n ≤ entries.length) :
    headers.messages host peer n =
      (outgoing (fun _ entry => entry.addr) wholePayload peer entries 0).take
        n := by
  apply messages_eq_outgoing _ _ hn
  intro i hi
  obtain ⟨header, hheader, hiovec, -, hnull, hname⟩ := h i hi
  refine ⟨header, hheader, ?_⟩
  cases haddr : entries[i].addr with
  | none =>
      have hptr : header.msgName = .null := hnull.mpr haddr
      simp [SendHeaders.message, SendHeaders.nameOf, hptr, hiovec,
        wholePayload]
  | some addr =>
      simp [SendHeaders.message, hname addr haddr, hiovec, wholePayload]

def heapRoute (entries : List SendSlot) (i : Nat) (entry : SendSlot) :
    Option SocketAddr :=
  entry.addr.map fun _ => patchedAddr entries i

theorem heapHeaders_messages (host : Host) (batch : SendBatchRaw)
    (peer : Option SocketAddr) {n : Nat} (hn : n ≤ batch.entries.length) :
    (heapHeaders host batch).messages host peer n =
      (outgoing (heapRoute batch.entries) wholePayload peer batch.entries
        0).take n := by
  apply messages_eq_outgoing _ _ hn
  intro i hi
  refine ⟨_, heapHeaders_msgs host batch hi, ?_⟩
  have hiovec : (heapHeaders host batch).iovecOf (entryHeader host
      (addressedBefore batch.entries i) i batch.entries[i]) =
      some batch.entries[i].data := by
    simp [SendHeaders.iovecOf, entryHeader, List.getElem?_eq_getElem hi]
  cases haddr : batch.entries[i].addr with
  | none =>
      have hname : (heapHeaders host batch).nameOf host (entryHeader host
          (addressedBefore batch.entries i) i batch.entries[i]) = .null := by
        simp [SendHeaders.nameOf, entryHeader, haddr]
      simp [SendHeaders.message, hiovec, hname, haddr, heapRoute,
        wholePayload]
  | some addr =>
      simp [SendHeaders.message, hiovec, heapRoute, haddr, wholePayload,
        heapHeaders_nameOf host batch hi haddr]

def batchedResult (n : Nat) (script : List (Except Fault Unit)) :
    IoResult Nat :=
  match Os.sendManyResult n script with
  | .ok sent => .ok sent
  | .error fault => .error fault.error

theorem sendmsgX_eq (messages : List Sent) (os : Os) :
    sendmsgX messages os =
      (batchedResult messages.length os.sendScript,
        os.afterOffering messages) := by
  simp only [sendmsgX, batchedResult, Os.sendMany_eq]
  cases Os.sendManyResult messages.length os.sendScript <;> rfl

theorem sendmmsg_eq {messages : List Sent} {os : Os}
    (h : os.hasSendmmsg = true) :
    sendmmsg messages os =
      (batchedResult messages.length os.sendScript,
        os.afterOffering messages) := by
  simp only [sendmmsg, h, if_true, batchedResult, Os.sendMany_eq]
  cases Os.sendManyResult messages.length os.sendScript <;> rfl

theorem batchedResult_first (n : Nat) (script : List (Except Fault Unit)) :
    batchedResult n script =
      if n = 0 then .ok 0
      else
        match (ask .wouldBlock script).1 with
        | .error fault => .error fault.error
        | .ok () => .ok (granted n script).length := by
  cases n with
  | zero => simp [batchedResult, Os.sendManyResult]
  | succ n =>
      rcases script with - | ⟨fault | ⟨⟨⟩⟩, script⟩
      · rfl
      · rfl
      · cases hrefusal : refusal .wouldBlock n script <;>
          simp [batchedResult, Os.sendManyResult, refusal, granted, ask,
            hrefusal]

theorem batchedResult_rawOsError {n : Nat} {script : List (Except Fault Unit)}
    {error : IoError} (h : batchedResult n script = .error error) :
    error.rawOsError ≠ some .enosys := by
  unfold batchedResult at h
  split at h
  · simp at h
  · next fault _ =>
      obtain rfl : fault.error = error := by simpa using h
      exact fault.error_rawOsError

theorem batchedResult_interrupted {n : Nat} {script : List (Except Fault Unit)}
    {error : IoError} (h : batchedResult n script = .error error)
    (hkind : error.kind = .interrupted) :
    0 < n ∧ ∃ rest, script = .error .interrupted :: rest := by
  unfold batchedResult at h
  split at h
  · simp at h
  · next fault hfault =>
      obtain rfl : fault.error = error := by simpa using h
      obtain rfl := fault.error_kind_interrupted.mp hkind
      obtain ⟨hrefusal, hgranted⟩ := Os.sendManyResult_error_iff.mp hfault
      have hanswer := (refusal_of_granted_nil hrefusal hgranted).1
      refine ⟨Nat.pos_of_ne_zero (by rintro rfl; simp at hrefusal), ?_⟩
      cases script with
      | nil => simp [ask] at hanswer
      | cons answer rest => exact ⟨rest, by simpa [ask] using hanswer⟩

theorem sendmsgX_asksScript (messages : List Sent) :
    AsksScript (sendmsgX messages) (fun _ => True) messages.length
      Os.sendScript (fun os script => { os with sendScript := script }) where
  supported_put _ _ h := h
  get_put _ _ := rfl
  put_get _ := rfl
  put_put _ _ _ := rfl
  interrupted hn os rest _ hscript := by
    obtain ⟨n, hlength⟩ : ∃ k, messages.length = k + 1 :=
      ⟨messages.length - 1, by omega⟩
    simp [sendmsgX_eq, batchedResult, Os.sendManyResult, Os.afterOffering,
      hlength, hscript, granted, refusal, remaining, Fault.error, Fault.errno]
  done os _ hfront error os' hcall hkind := by
    rw [sendmsgX_eq, Prod.mk.injEq] at hcall
    obtain ⟨hn, rest, hrest⟩ := batchedResult_interrupted hcall.1 hkind
    exact hfront hn rest hrest

theorem retryEintr_sendmsgX (messages : List Sent) (os : Os) :
    retryEintr (sendmsgX messages) (fun os => os.sendScript.length)
        (fun _ _ _ => sendmsgX_interrupted) os =
      sendmsgX messages { os with
        sendScript := skipInterrupted messages.length os.sendScript } :=
  retryEintr_eq _ _ (sendmsgX_asksScript messages) trivial

/-! ## The backends -/

theorem perPacketSend_batch (host : Host) (stripped : Bool)
    (batch : SendBatchRaw) (os : Os) :
    (if batch.len = 0 then (.ok 0, os)
      else perPacketSend host stripped batch.entries 0 0 os) =
      (perPacketResult 0 batch.len os.sendScript,
        os.afterOffering (outgoing (perPacketRoute stripped) wholePayload
          os.peer batch.entries 0)) := by
  split
  · next hlen =>
      have hnil : batch.entries = [] :=
        List.eq_nil_of_length_eq_zero (by rw [batch.entries_length, hlen])
      simp [hlen, hnil, perPacketResult, Os.afterOffering]
  · rw [perPacketSend_eq, batch.entries_length]

namespace Linux

def route (batch : SendBatchRaw) (i : Nat) (entry : SendSlot) :
    Option SocketAddr :=
  if batch.len ≤ maxStack then entry.addr else heapRoute batch.entries i entry

theorem sendHeaders_messages (host : Host) (batch : SendBatchRaw)
    (peer : Option SocketAddr) {n : Nat} (hn : n ≤ batch.len) :
    (sendHeaders host batch).messages host peer n =
      (outgoing (route batch) wholePayload peer batch.entries 0).take n := by
  unfold sendHeaders
  split
  · next h =>
      have hroute : route batch = fun _ entry => entry.addr := by
        funext i entry
        simp [route, h]
      rw [hroute]
      exact (stackHeaders_represents host batch h).messages_eq peer
        (by simpa using hn)
  · next h =>
      have hroute : route batch = heapRoute batch.entries := by
        funext i entry
        simp [route, h]
      rw [hroute]
      exact heapHeaders_messages host batch peer (by simpa using hn)

theorem fallbackSend_eq (host : Host) (batch : SendBatchRaw) (os : Os) :
    fallbackSend host batch os =
      (perPacketResult 0 batch.len os.sendScript,
        os.afterOffering (outgoing (perPacketRoute os.isConnected)
          wholePayload os.peer batch.entries 0)) :=
  perPacketSend_batch host os.isConnected batch os

theorem trySendBatch_of_sendmmsg (host : Host) (batch : SendBatchRaw)
    {os : Os} (h : os.hasSendmmsg = true) :
    trySendBatch host batch os =
      (batchedResult (vlen batch.len) os.sendScript,
        os.afterOffering ((outgoing (route batch) wholePayload os.peer
          batch.entries 0).take (vlen batch.len))) := by
  unfold trySendBatch
  split
  · next hlen =>
      simp [hlen, vlen, batchedResult, Os.sendManyResult, Os.afterOffering]
  · simp only [sendHeaders_messages host batch os.peer (vlen_le _),
      sendmmsg_eq h, List.length_take, outgoing_length, batch.entries_length,
      Nat.min_eq_left (vlen_le batch.len)]
    cases hresult : batchedResult (vlen batch.len) os.sendScript with
    | ok sent => rfl
    | error error => simp [batchedResult_rawOsError hresult]

theorem trySendBatch_of_enosys (host : Host) (batch : SendBatchRaw) {os : Os}
    (h : os.hasSendmmsg = false) :
    trySendBatch host batch os = fallbackSend host batch os := by
  unfold trySendBatch
  split
  · next hlen => simp [fallbackSend, hlen]
  · simp [sendmmsg, h, IoError.rawOsError]

end Linux

theorem Macos.trySendBatch_of_sendmsgX (host : Host) (batch : SendBatchRaw)
    {os : Os} (hconn : os.isConnected = false) (h : os.hasSendmsgX = true) :
    Macos.trySendBatch host batch os =
      (batchedResult (vlen batch.len)
        (skipInterrupted (vlen batch.len) os.sendScript),
        Os.afterOffering
          { os with
            sendScript := skipInterrupted (vlen batch.len) os.sendScript }
          ((outgoing (heapRoute batch.entries) wholePayload os.peer
            batch.entries 0).take (vlen batch.len))) := by
  unfold Macos.trySendBatch
  split
  · next hlen =>
      simp [hlen, vlen, batchedResult, Os.sendManyResult, Os.afterOffering,
        skipInterrupted]
  · have hmessages := heapHeaders_messages host batch os.peer
      (n := vlen batch.len) (by simpa using vlen_le batch.len)
    simp only [hconn, Bool.false_eq_true, if_false, h, if_true,
      Macos.sendHeaders, hmessages, retryEintr_sendmsgX, sendmsgX_eq,
      List.length_take, outgoing_length, batch.entries_length,
      Nat.min_eq_left (vlen_le batch.len)]

theorem Macos.trySendBatch_of_loop (host : Host) (batch : SendBatchRaw)
    {os : Os} (h : os.isConnected = true ∨ os.hasSendmsgX = false) :
    Macos.trySendBatch host batch os =
      (perPacketResult 0 batch.len os.sendScript,
        os.afterOffering (outgoing (perPacketRoute os.isConnected)
          wholePayload os.peer batch.entries 0)) := by
  rw [← perPacketSend_batch host os.isConnected batch os]
  cases hconn : os.isConnected with
  | true => simp [Macos.trySendBatch, hconn]
  | false => simp_all [Macos.trySendBatch]

theorem Windows.trySendBatch_eq (host : Host) (batch : SendBatchRaw)
    (os : Os) :
    Windows.trySendBatch host batch os =
      (wsaResult 0 batch.len os.sendScript,
        os.afterOffering (outgoing (perPacketRoute os.isConnected) wsaPayload
          os.peer batch.entries 0)) := by
  unfold Windows.trySendBatch
  split
  · next hlen =>
      have hnil : batch.entries = [] :=
        List.eq_nil_of_length_eq_zero (by rw [batch.entries_length, hlen])
      simp [hlen, hnil, wsaResult, Os.afterOffering]
  · rw [wsaSendLoop_eq, batch.entries_length]

end Binger.Platform
