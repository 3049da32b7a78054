import Libdsm.Smb.Proofs.Fwrite
import Libdsm.Smb.Proofs.Peer
import Libdsm.Smb.Proofs.Position

/-!
# Remote files as local ones

`LocalFiles` is what a program expects of open files: contents on a disk, and descriptors that stand for
a file and a position in it. Several descriptors may stand for one file. `FileServer` is the other end of
the connection: it reads the requests of `smb_fread` and `smb_fwrite` byte by byte and answers them from
its disk. A session and a server together are local files, call by call.
-/

namespace Libdsm

/-! ## Local files -/

/-- Data written at an offset. The gap behind a shorter content is filled with zeros, and a write of
nothing leaves the content alone. -/
def writeAt (content : List UInt8) (offset : Nat) (data : List UInt8) : List UInt8 :=
  if data = [] then content
  else (content ++ List.replicate (offset - content.length) 0).take offset ++ data ++
    content.drop (offset + data.length)

/-- The files of a disk, and the open ones by descriptor, each with its position. -/
structure LocalFiles where
  opened : UInt32 → Option (Nat × Int)
  disk : Nat → List UInt8

namespace LocalFiles

variable (f : LocalFiles)

/-- At most 65535 bytes at a time. -/
def read (fd : UInt32) (copy : Bool) (bufSize : Nat) : SmbResult × LocalFiles :=
  match f.opened fd with
  | none => (.read (-1) none, f)
  | some (i, position) =>
    let data := ((f.disk i).drop position.toNat).take (min 0xffff bufSize)
    (.read data.length (if copy then some data else none),
      { f with opened := Function.update f.opened fd (some (i, position + data.length)) })

/-- At most as many bytes as fit a frame. -/
def write (fd : UInt32) (buf : List UInt8) : SmbResult × LocalFiles :=
  match f.opened fd with
  | none => (.size (-1), f)
  | some (i, position) =>
    let data := buf.take smbMaxWrite
    (.size data.length,
      { opened := Function.update f.opened fd (some (i, position + data.length))
        disk := Function.update f.disk i (writeAt (f.disk i) position.toNat data) })

def seek (fd : UInt32) (offset : Int) (whence : Option SmbSeek) : SmbResult × LocalFiles :=
  match f.opened fd with
  | none => (.size (-1), f)
  | some (i, position) =>
    (.size (seekTo position offset whence),
      { f with opened := Function.update f.opened fd (some (i, seekTo position offset whence)) })

/-- A call on a descriptor. -/
def step : SmbOp → SmbResult × LocalFiles
  | .fread fd copy bufSize => f.read fd copy bufSize
  | .fwrite fd buf => f.write fd buf
  | .fseek fd offset whence => f.seek fd offset whence
  | _ => (.done, f)

end LocalFiles

/-- The calls on descriptors. -/
def SmbOp.isFileOp : SmbOp → Bool
  | .fread .. | .fwrite .. | .fseek .. => true
  | _ => false

/-! ## A server -/

/-- The files that a server has open, by the tid and the fid that stand for them, and its disk. -/
structure FileServer where
  handle : UInt32 → Option Nat
  disk : Nat → List UInt8

namespace FileServer

variable (v : FileServer)

/-- The file that a request is for. -/
def requested (request : List UInt8) : Option Nat :=
  v.handle (smbFd (replyTid request) (requestFid request))

/-- The data of a write request. -/
def writtenData (request : List UInt8) : List UInt8 :=
  (request.drop (replyU16 request writeFields.offset).toNat).take
    (replyU16 request writeFields.length).toNat

/-- What the server answers: `STATUS_INVALID_HANDLE` if the file is not open. -/
def reply (request : List UInt8) : List UInt8 :=
  match v.requested request with
  | none => replyBytes 0xc0000008 0 0 [0, 0, 0]
  | some i =>
    if requestCommand request = smbCmdRead then
      readReply (((v.disk i).drop (requestOffset readOffsetHigh request).toNat).take
        (replyU16 request (smbHeaderSize + 11)).toNat)
    else writeReply (UInt16.ofNat (writtenData request).length)

/-- What becomes of its disk. -/
def serve (request : List UInt8) : FileServer :=
  match v.requested request with
  | none => v
  | some i =>
    if requestCommand request = smbCmdWrite then
      let content := writeAt (v.disk i) (requestOffset writeOffsetHigh request).toNat
        (writtenData request)
      { v with disk := Function.update v.disk i content }
    else v

end FileServer

/-! ## Both together -/

/-- The local files that a session and a server stand for. -/
def localFiles (st : SmbSession × FileServer) : LocalFiles where
  opened fd := (smbSessionFileGet st.1 fd).bind fun file =>
    (st.2.handle fd).map fun i => (i, file.offset)
  disk := st.2.disk

/-- A call, and what the server makes of the frames that it sends. -/
def fileStep (P : Platform) (st : SmbSession × FileServer) (op : SmbOp) : SmbSession × FileServer :=
  (op.run P st.1, (op.offered P st.1).foldl (fun v frame => v.serve (frameMessage frame)) st.2)

/-- The connection is up and nothing waits to be read, the descriptors of the session are those of the
server, and no position is outside of the range of 63 bits. -/
structure FileInv (st : SmbSession × FileServer) : Prop where
  ready : st.1.transport.session.ready = true
  drained : Delivers st.1.tcp.inbox []
  tids : TidsMatch st.1
  handles : ∀ fd, (smbSessionFileGet st.1 fd).isSome → (st.2.handle fd).isSome
  range : ∀ fd i position, (localFiles st).opened fd = some (i, position) →
    0 ≤ position ∧ position < 2 ^ 63

/-- What a run is given: the socket takes the frame of a request, the peer answers it as the server does,
and no position leaves its range. -/
structure FilePromise (st : SmbSession × FileServer) (op : SmbOp) : Prop where
  fileOp : op.isFileOp = true
  sends : 65539 ≤ st.1.tcp.sends.headD 0
  server : ∀ frame, Delivers (st.1.tcp.server st.1.tcp.served frame) [st.2.reply (frameMessage frame)]
  range : ∀ fd i position, ((localFiles st).step op).2.opened fd = some (i, position) →
    0 ≤ position ∧ position < 2 ^ 63

/-- The call returns what it returns on local files, and leaves local files as it does on these. -/
def ActsLocally (P : Platform) (st : SmbSession × FileServer) (op : SmbOp) : Prop :=
  op.result P st.1 = ((localFiles st).step op).1 ∧
    localFiles (fileStep P st op) = ((localFiles st).step op).2

/-! ## The requests -/

section

variable {fd : UInt32} {file : SmbFile} {s : SmbSession}

theorem toNat_of_toInt64 {x : UInt64} {p : Int} (h : x.toInt64.toInt = p) (hp : 0 ≤ p) :
    x.toNat = p.toNat := by
  have hlt := x.toNat_lt
  have hint : x.toBitVec.toInt = p := h
  rw [BitVec.toInt_eq_toNat_bmod, UInt64.toNat_toBitVec, Int.bmod_def] at hint
  omega

/-- The request of a read, and how many bytes it asks for. -/
theorem freadReq_request (P : Platform) (file : SmbFile) (s : SmbSession) (bufSize : Nat) :
    (smbRequestBytes s.srv.uid (smbFreadReq P file bufSize)).length = 59 ∧
      (replyU16 (frameMessage (s.requestFrame (smbFreadReq P file bufSize)))
        (smbHeaderSize + 11)).toNat = min 0xffff bufSize := by
  have hbuilt : ∃ r : SmbReadReq, smbFreadReq P file bufSize =
        smbMessageAppend ((smbMessageNew P smbCmdRead).setTid file.tid) r.bytes ∧
      r.maxCount = UInt16.ofNat (min 0xffff bufSize) := ⟨_, rfl, rfl⟩
  obtain ⟨r, hreq, hcount⟩ := hbuilt
  have hlength : r.bytes.length = 27 := by simp [SmbReadReq.bytes, smbAndxMembers]
  have hcarries := (Carries.new P smbCmdRead file.tid).append r.bytes (by rw [hlength]; decide)
  rw [List.nil_append, ← hreq] at hcarries
  have hcursor : (smbFreadReq P file bufSize).cursor = 27 := by
    simpa [hlength] using hcarries.builds.cursor
  obtain ⟨-, -, hcontent⟩ := hcarries.frame s (by rw [hlength]; decide)
  refine ⟨by rw [requestBytes_length, hcursor, smbHeaderSize], ?_⟩
  rw [replyU16_payload _ 11 (x := r.maxCount) (by rw [hcontent]; rfl), hcount, UInt16.toNat_ofNat',
    Nat.mod_eq_of_lt (by omega)]

/-- The request of a write, and the data that it carries. -/
theorem fwriteReq_request (P : Platform) (file : SmbFile) (s : SmbSession) (buf : List UInt8) :
    (smbRequestBytes s.srv.uid (smbFwriteReq P file buf)).length < 65536 ∧
      FileServer.writtenData (frameMessage (s.requestFrame (smbFwriteReq P file buf))) =
        buf.take smbMaxWrite := by
  obtain ⟨r, hbuilds, hlen, hoffset, -, -⟩ := fwriteReq_builds P file buf
  obtain ⟨sent, hsent, hbuilds⟩ := hbuilds.request s.srv.uid
  obtain ⟨hlength, hholds⟩ := writeMsg_holds hbuilds
  have hmax : smbMaxWrite = 65471 := rfl
  have hdata : (buf.take (min smbMaxWrite buf.length)).length = min smbMaxWrite buf.length := by
    rw [List.length_take]
    omega
  rw [hdata, smbHeaderSize, SmbWriteReq.size] at hlength
  have hlt : (smbRequestBytes s.srv.uid (smbFwriteReq P file buf)).length < 65536 := by
    rw [hsent, hlength]
    omega
  have hcount : (replyU16 sent.bytes writeFields.length).toNat = min smbMaxWrite buf.length := by
    rw [hholds.length, hlen, UInt16.toNat_ofNat', Nat.mod_eq_of_lt (by omega)]
  have hplace : (replyU16 sent.bytes writeFields.offset).toNat = 64 := by
    rw [hholds.offset, hoffset]
    rfl
  refine ⟨hlt, ?_⟩
  rw [requestFrame_message s _ hlt, hsent, FileServer.writtenData, hcount, hplace, hholds.write_data,
    List.take_take, Nat.min_self]
  rcases Nat.le_total smbMaxWrite buf.length with hle | hle
  · rw [Nat.min_eq_left hle]
  · rw [Nat.min_eq_right hle, List.take_length, List.take_of_length_le hle]

end

/-! ## The replies -/

theorem readReply_accepted {data : List UInt8} (h : data.length ≤ 0xffff) :
    ReadAccepted (readReply data) ∧ readReplyLen (readReply data) = data.length ∧
      ((readReply data).drop (readReplyOffset (readReply data))).take
        (readReplyLen (readReply data)) = data := by
  have hbytes : readReply data = replyBytes 0 0 0 (List.replicate 11 0 ++
      le16 (.ofNat data.length) ++ le16 59 ++ List.replicate 12 0) ++ data := by
    simp only [readReply, replyBytes, List.append_assoc]
  have hfront : (replyBytes 0 0 0 (List.replicate 11 0 ++ le16 (.ofNat data.length) ++ le16 59 ++
      List.replicate 12 0)).length = 59 := by
    simp [replyBytes, smbMagic]
  have hlen : readReplyLen (readReply data) = data.length := by
    have hfield : replyU16 (readReply data) (smbHeaderSize + 11) = UInt16.ofNat data.length := by
      apply replyU16_payload
      rw [hbytes]
      rfl
    rw [readReplyLen, hfield, UInt16.toNat_ofNat', Nat.mod_eq_of_lt (by omega)]
  have hoffset : readReplyOffset (readReply data) = 59 := by
    have hfield : replyU16 (readReply data) (smbHeaderSize + 13) = 59 := by
      apply replyU16_payload
      rw [hbytes]
      rfl
    rw [readReplyOffset, hfield]
    rfl
  have hlength : (readReply data).length = 59 + data.length := by
    rw [hbytes, List.length_append, hfront]
  refine ⟨⟨?_, ?_, ?_⟩, hlen, ?_⟩
  · rw [hbytes]
    rfl
  · rw [hlength, smbHeaderSize, SmbReadResp.size]
    omega
  · rw [hlen, hoffset, hlength]
  · rw [hlen, hoffset, hbytes, List.drop_left' hfront, List.take_length]

theorem writeReply_accepted (n : UInt16) :
    WriteAccepted (writeReply n) ∧ writeReplyLen (writeReply n) = n.toNat := by
  refine ⟨⟨rfl, Nat.le_refl _⟩, ?_⟩
  have hfield : replyU16 (writeReply n) (smbHeaderSize + 5) = n := by
    apply replyU16_payload
    rfl
  rw [writeReplyLen, hfield]

/-! ## One call -/

section

variable {P : Platform} {s s₁ s₂ : SmbSession} {fd : UInt32} {file : SmbFile} {resp : SmbMessage}
variable {reply : List UInt8}
variable (hopen : smbSessionFileGet s fd = some file) (hshares : s₂.shares = s.shares)
variable (hrecv : smbSessionRecvMsg s₁ = (some resp, s₂)) (hholds : resp.Holds reply)

include hopen hshares hrecv hholds

theorem fread_run {copy : Bool} {bufSize : Nat}
    (hsend : smbSessionSendMsg (smbFreadReq P file bufSize) s = (true, s₁))
    (haccepted : ReadAccepted reply) :
    SmbOp.exec P (.fread fd copy bufSize) s = (.read (readReplyLen reply) (if copy then
        some ((reply.drop (readReplyOffset reply)).take (readReplyLen reply)) else none),
      s₂.seek fd (file.offset + readReplyLen reply)) := by
  obtain ⟨hstatus, hsize, hinside⟩ := haccepted
  have hlength := hholds.length
  rw [SmbReadResp.size] at hsize
  have hdataLen : (SmbReadResp.dataLen resp.payload).toNat = readReplyLen reply := by
    rw [SmbReadResp.dataLen, readReplyLen, hholds.payload_u16_eq (by omega)]
  have hdataOffset : (SmbReadResp.dataOffset resp.payload).toNat = readReplyOffset reply := by
    rw [SmbReadResp.dataOffset, readReplyOffset, hholds.payload_u16_eq (by omega)]
  have hcheck : smbSessionCheckNtStatus resp s₂ = (true, s₂) := by
    rw [smbSessionCheckNtStatus, hholds.status_eq, if_neg (fun h => h hstatus)]
    rfl
  have hfile : smbSessionFileGet s₂ fd = some file := by rw [fileGet_congr hshares, hopen]
  have hrun : smbFread P fd copy bufSize s = ((↑(readReplyLen reply), if copy then
        some ((reply.drop (readReplyOffset reply)).take (readReplyLen reply)) else none),
      s₂.seek fd (file.offset + readReplyLen reply)) := by
    rw [smbFread, get_bind_run, hopen]
    dsimp only
    rw [bind_run hsend, if_neg (by decide), bind_run hrecv]
    dsimp only
    rw [bind_run hcheck, if_neg (by decide), if_neg (by rw [SmbReadResp.size]; omega), hdataLen,
      hdataOffset, if_neg (by omega), bind_run (fseek_open hfile _ _), hholds.read_eq (by omega)]
    rfl
  rw [SmbOp.exec, bind_run hrun]
  rfl

theorem fwrite_run {buf : List UInt8}
    (hsend : smbSessionSendMsg (smbFwriteReq P file buf) s = (true, s₁))
    (haccepted : WriteAccepted reply) :
    SmbOp.exec P (.fwrite fd buf) s =
      (.size (writeReplyLen reply), s₂.seek fd (file.offset + writeReplyLen reply)) := by
  obtain ⟨hstatus, hsize⟩ := haccepted
  have hlength := hholds.length
  rw [SmbWriteResp.size] at hsize
  have hdataLen : (SmbWriteResp.dataLen resp.payload).toNat = writeReplyLen reply := by
    rw [SmbWriteResp.dataLen, writeReplyLen, hholds.payload_u16_eq (by omega)]
  have hcheck : smbSessionCheckNtStatus resp s₂ = (true, s₂) := by
    rw [smbSessionCheckNtStatus, hholds.status_eq, if_neg (fun h => h hstatus)]
    rfl
  have hfile : smbSessionFileGet s₂ fd = some file := by rw [fileGet_congr hshares, hopen]
  have hrun : smbFwrite P fd buf s =
      (↑(writeReplyLen reply), s₂.seek fd (file.offset + writeReplyLen reply)) := by
    rw [smbFwrite, get_bind_run, hopen]
    dsimp only
    rw [bind_run hsend, if_neg (by decide), bind_run hrecv]
    dsimp only
    rw [bind_run hcheck, if_neg (by decide), if_neg (by rw [SmbWriteResp.size]; omega), hdataLen,
      bind_run (fseek_open hfile _ _)]
    rfl
  rw [SmbOp.exec, bind_run hrun]
  rfl

end

section

variable {s s' : SmbSession} {v v' : FileServer} {fd : UInt32} {file : SmbFile} {i : Nat}

theorem fileGet_seek (hfd : fd ≠ 0) (position : Int) (other : UInt32) :
    smbSessionFileGet (s.seek fd position) other =
      if other = fd then (smbSessionFileGet s fd).map fun file => { file with offset := position }
      else smbSessionFileGet s other := by
  rw [SmbSession.seek, fileGet_fileUpdate s hfd]
  exact fun file => rfl

/-- Moving the position of a descriptor. -/
theorem localFiles_seek (hshares : s'.shares = s.shares) (hopen : smbSessionFileGet s fd = some file)
    (hhandle : v.handle fd = some i) (hv : v'.handle = v.handle) (position : Int) :
    localFiles (s'.seek fd position, v') =
      { opened := Function.update (localFiles (s, v)).opened fd (some (i, position))
        disk := v'.disk } := by
  have hfd := fileGet_ne_zero hopen
  simp only [localFiles, LocalFiles.mk.injEq, and_true]
  funext other
  rw [fileGet_seek hfd, fileGet_congr hshares, fileGet_congr hshares, hv]
  by_cases heq : other = fd
  · rw [heq, if_pos rfl, Function.update_self, hopen, hhandle]
    rfl
  · rw [if_neg heq, Function.update_of_ne heq]

theorem localFiles_open (hopen : smbSessionFileGet s fd = some file) (hhandle : v.handle fd = some i) :
    (localFiles (s, v)).opened fd = some (i, file.offset) := by
  simp only [localFiles, hopen, hhandle]
  rfl

/-- A state in which the connection is as before and the position of a descriptor has moved. -/
theorem FileInv.moved (h : FileInv (s, v)) (hshares : s'.shares = s.shares)
    (hready : s'.transport.session.ready = true) (hdrained : Delivers s'.tcp.inbox [])
    (hopen : smbSessionFileGet s fd = some file) (hv : v'.handle = v.handle) (position : Int)
    (hrange : ∀ fd' i' p', (localFiles (s'.seek fd position, v')).opened fd' = some (i', p') →
      0 ≤ p' ∧ p' < 2 ^ 63) :
    FileInv (s'.seek fd position, v') := by
  have hfd := fileGet_ne_zero hopen
  refine ⟨hready, hdrained, (h.tids.congr hshares).seek hfd position, fun other hsome => ?_, hrange⟩
  rw [fileGet_seek hfd, fileGet_congr hshares, fileGet_congr hshares] at hsome
  rw [hv]
  apply h.handles
  split at hsome
  · rename_i heq
    rw [heq, hopen]
    rfl
  · exact hsome

end

section

variable {P : Platform} {s : SmbSession} {v : FileServer} {op : SmbOp}

/-- A request that the server answers. -/
theorem FileInv.exchange (h : FileInv (s, v)) (hp : FilePromise (s, v) op) {msg : SmbMessage}
    (hlt : (smbRequestBytes s.srv.uid msg).length < 65536)
    (hlong : smbHeaderSize < (v.reply (smbRequestBytes s.srv.uid msg)).length) :
    ∃ s₁ s₂ resp, smbSessionSendMsg msg s = (true, s₁) ∧ smbSessionRecvMsg s₁ = (some resp, s₂) ∧
      resp.Holds (v.reply (smbRequestBytes s.srv.uid msg)) ∧ s₂.shares = s.shares ∧
      s₂.transport.session.ready = true ∧ Delivers s₂.tcp.inbox [] := by
  have hpeer : Peer 65539 s [] [fun request => [v.reply request]] :=
    .next h.ready h.drained hp.sends hp.server
  obtain ⟨nb₁, nb₂, resp, -, -, hsend, hrecv, hholds, -, -, -, hpeer₂⟩ :=
    hpeer.exchange rfl hlt (by rw [netbiosHeaderSize]; omega) hlong
  exact ⟨_, _, resp, hsend, hrecv, hholds, rfl, hpeer₂.ready, hpeer₂.inbox⟩

variable {fd : UInt32} {file : SmbFile} {i : Nat}

/-- A call that has moved its descriptor by `n` bytes, and what it has to do with local files. -/
theorem FileInv.transferred (h : FileInv (s, v)) (hp : FilePromise (s, v) op)
    (hopen : smbSessionFileGet s fd = some file) (hhandle : v.handle fd = some i) {r : SmbResult}
    {s' : SmbSession} {n : Nat} {msg : SmbMessage} (hshares : s'.shares = s.shares)
    (hready : s'.transport.session.ready = true) (hdrained : Delivers s'.tcp.inbox [])
    (hexec : op.exec P s = (r, s'.seek fd (file.offset + n)))
    (hoffered : op.offered P s = if s.transport.session.ready then [s.requestFrame msg] else [])
    (hserve : (v.serve (frameMessage (s.requestFrame msg))).handle = v.handle)
    (hlocal : (localFiles (s, v)).step op = (r,
      { opened := Function.update (localFiles (s, v)).opened fd (some (i, file.offset + n))
        disk := (v.serve (frameMessage (s.requestFrame msg))).disk })) :
    ActsLocally P (s, v) op ∧ FileInv (fileStep P (s, v) op) := by
  have hready' : s.transport.session.ready = true := h.ready
  have hstep : fileStep P (s, v) op = (s'.seek fd (file.offset + n),
      v.serve (frameMessage (s.requestFrame msg))) := by
    rw [fileStep, hoffered, if_pos hready', List.foldl_cons, List.foldl_nil]
    exact congrArg (·, _) (congrArg Prod.snd hexec)
  have hafter := localFiles_seek hshares hopen hhandle hserve (file.offset + n)
  refine ⟨⟨?_, ?_⟩, ?_⟩
  · rw [hlocal]
    exact congrArg Prod.fst hexec
  · rw [hlocal, hstep, hafter]
  · rw [hstep]
    refine h.moved hshares hready hdrained hopen hserve _ ?_
    have hrange := hp.range
    rw [hlocal] at hrange
    rw [hafter]
    exact hrange

/-- A read of a file that the server has. -/
theorem FileInv.fread (h : FileInv (s, v)) {copy : Bool} {bufSize : Nat}
    (hp : FilePromise (s, v) (.fread fd copy bufSize)) (hopen : smbSessionFileGet s fd = some file)
    (hhandle : v.handle fd = some i) :
    ActsLocally P (s, v) (.fread fd copy bufSize) ∧
      FileInv (fileStep P (s, v) (.fread fd copy bufSize)) := by
  obtain ⟨hlow, hhigh⟩ := h.range fd i file.offset (localFiles_open hopen hhandle)
  have hat := freadReq_at P (h.tids fd file hopen) (fileGet_fid hopen) (by omega) hhigh s bufSize
  obtain ⟨hlength, hcount⟩ := freadReq_request P file s bufSize
  have hlt : (smbRequestBytes s.srv.uid (smbFreadReq P file bufSize)).length < 65536 := by omega
  have hmessage := requestFrame_message s _ hlt
  -- the server finds the file, the position and the count in the request
  generalize hdata : ((v.disk i).drop file.offset.toNat).take (min 0xffff bufSize) = data
  have hfew : data.length ≤ 0xffff := by
    rw [← hdata, List.length_take]
    omega
  have hrequested : v.requested (frameMessage (s.requestFrame (smbFreadReq P file bufSize))) = some i := by
    rw [FileServer.requested, hat.file, hhandle]
  have hreply : v.reply (smbRequestBytes s.srv.uid (smbFreadReq P file bufSize)) = readReply data := by
    rw [← hmessage, FileServer.reply, hrequested]
    dsimp only
    rw [if_pos hat.command, toNat_of_toInt64 hat.offset hlow, hcount, hdata]
  have hserve : v.serve (frameMessage (s.requestFrame (smbFreadReq P file bufSize))) = v := by
    rw [FileServer.serve, hrequested]
    dsimp only
    rw [if_neg (by rw [hat.command]; decide)]
  obtain ⟨haccepted, hlen, hslice⟩ := readReply_accepted hfew
  obtain ⟨s₁, s₂, resp, hsend, hrecv, hholds, hshares, hready, hdrained⟩ := h.exchange hp hlt (by
    rw [hreply]
    exact Nat.lt_of_lt_of_le (by decide) haccepted.2.1)
  rw [hreply] at hholds
  have hexec : SmbOp.exec P (.fread fd copy bufSize) s = _ :=
    fread_run hopen hshares hrecv hholds hsend haccepted
  rw [hlen] at hexec hslice
  rw [hslice] at hexec
  have hoffered : SmbOp.offered P s (.fread fd copy bufSize) =
      if s.transport.session.ready then [s.requestFrame (smbFreadReq P file bufSize)] else [] := by
    rcases exec_spec (fread_exec P hopen copy bufSize) rfl with ⟨_, -, -, hfailed⟩ | ⟨_, -, hdone, -⟩
    · exact hfailed.offered_eq
    · exact hdone.offered_eq
  refine h.transferred hp hopen hhandle hshares hready hdrained hexec hoffered (by rw [hserve]) ?_
  rw [hserve]
  show (localFiles (s, v)).read fd copy bufSize = _
  rw [LocalFiles.read, localFiles_open hopen hhandle, ← hdata]
  rfl

/-- A write to a file that the server has. -/
theorem FileInv.fwrite (h : FileInv (s, v)) {buf : List UInt8}
    (hp : FilePromise (s, v) (.fwrite fd buf)) (hopen : smbSessionFileGet s fd = some file)
    (hhandle : v.handle fd = some i) :
    ActsLocally P (s, v) (.fwrite fd buf) ∧ FileInv (fileStep P (s, v) (.fwrite fd buf)) := by
  obtain ⟨hlow, hhigh⟩ := h.range fd i file.offset (localFiles_open hopen hhandle)
  have hat := fwriteReq_at P (h.tids fd file hopen) (fileGet_fid hopen) (by omega) hhigh s buf
  obtain ⟨hlt, hdata⟩ := fwriteReq_request P file s buf
  have hmessage := requestFrame_message s _ hlt
  have hmax : smbMaxWrite = 65471 := rfl
  have hfew : (buf.take smbMaxWrite).length ≤ 65471 := by
    rw [List.length_take]
    omega
  have hrequested : v.requested (frameMessage (s.requestFrame (smbFwriteReq P file buf))) = some i := by
    rw [FileServer.requested, hat.file, hhandle]
  have hreply : v.reply (smbRequestBytes s.srv.uid (smbFwriteReq P file buf)) =
      writeReply (UInt16.ofNat (buf.take smbMaxWrite).length) := by
    rw [← hmessage, FileServer.reply, hrequested]
    dsimp only
    rw [if_neg (by rw [hat.command]; decide), hdata]
  have hserve : v.serve (frameMessage (s.requestFrame (smbFwriteReq P file buf))) =
      ⟨v.handle, Function.update v.disk i
        (writeAt (v.disk i) file.offset.toNat (buf.take smbMaxWrite))⟩ := by
    rw [FileServer.serve, hrequested]
    dsimp only
    rw [if_pos hat.command, toNat_of_toInt64 hat.offset hlow, hdata]
  obtain ⟨haccepted, hlen⟩ := writeReply_accepted (UInt16.ofNat (buf.take smbMaxWrite).length)
  obtain ⟨s₁, s₂, resp, hsend, hrecv, hholds, hshares, hready, hdrained⟩ := h.exchange hp hlt (by
    rw [hreply]
    exact Nat.lt_of_lt_of_le (by decide) haccepted.2)
  rw [hreply] at hholds
  have hexec : SmbOp.exec P (.fwrite fd buf) s = _ :=
    fwrite_run hopen hshares hrecv hholds hsend haccepted
  rw [hlen, UInt16.toNat_ofNat', Nat.mod_eq_of_lt (by omega)] at hexec
  have hoffered : SmbOp.offered P s (.fwrite fd buf) =
      if s.transport.session.ready then [s.requestFrame (smbFwriteReq P file buf)] else [] := by
    rcases exec_spec (fwrite_exec P hopen buf) rfl with ⟨_, -, -, hfailed⟩ | ⟨_, -, hdone, -⟩
    · exact hfailed.offered_eq
    · exact hdone.offered_eq
  refine h.transferred hp hopen hhandle hshares hready hdrained hexec hoffered (by rw [hserve]) ?_
  rw [hserve]
  show (localFiles (s, v)).write fd buf = _
  rw [LocalFiles.write, localFiles_open hopen hhandle]
  rfl

/-- A seek, which sends nothing. -/
theorem FileInv.fseek (h : FileInv (s, v)) {offset : Int} {whence : Option SmbSeek}
    (hp : FilePromise (s, v) (.fseek fd offset whence)) (hopen : smbSessionFileGet s fd = some file)
    (hhandle : v.handle fd = some i) :
    ActsLocally P (s, v) (.fseek fd offset whence) ∧
      FileInv (fileStep P (s, v) (.fseek fd offset whence)) := by
  have hexec : SmbOp.exec P (.fseek fd offset whence) s =
      (.size (seekTo file.offset offset whence), s.seek fd (seekTo file.offset offset whence)) := by
    rw [SmbOp.exec, bind_run (fseek_open hopen offset whence)]
    rfl
  have hrun : SmbOp.run P s (.fseek fd offset whence) =
      s.seek fd (seekTo file.offset offset whence) := congrArg Prod.snd hexec
  have hoffered : SmbOp.offered P s (.fseek fd offset whence) = [] := by
    have hevents : SmbOp.events P s (.fseek fd offset whence) = [] :=
      events_eq (by rw [hrun, List.append_nil]; rfl)
    rw [SmbOp.offered, hevents, List.filterMap_nil]
  have hstep : fileStep P (s, v) (.fseek fd offset whence) =
      (s.seek fd (seekTo file.offset offset whence), v) := by
    rw [fileStep, hoffered, hrun]
    rfl
  have hsame : v.handle = v.handle := rfl
  have hafter := localFiles_seek rfl hopen hhandle hsame (seekTo file.offset offset whence)
  have hlocal : (localFiles (s, v)).step (.fseek fd offset whence) =
      (.size (seekTo file.offset offset whence),
        localFiles (s.seek fd (seekTo file.offset offset whence), v)) := by
    rw [hafter]
    show (localFiles (s, v)).seek fd offset whence = _
    rw [LocalFiles.seek, localFiles_open hopen hhandle]
    rfl
  refine ⟨⟨?_, ?_⟩, ?_⟩
  · rw [hlocal]
    exact congrArg Prod.fst hexec
  · rw [hlocal, hstep]
  · have hrange := hp.range
    rw [hlocal] at hrange
    rw [hstep]
    exact h.moved rfl h.ready h.drained hopen rfl _ hrange

/-- A call on a descriptor that is not open changes nothing and fails. -/
theorem FileInv.closed (h : FileInv (s, v)) {r : SmbResult}
    (hexec : op.exec P s = (r, s)) (hlocal : (localFiles (s, v)).step op = (r, localFiles (s, v))) :
    ActsLocally P (s, v) op ∧ FileInv (fileStep P (s, v) op) := by
  have hrun : op.run P s = s := congrArg Prod.snd hexec
  have hstep : fileStep P (s, v) op = (s, v) := by
    rw [fileStep, offered_of_unchanged hrun, hrun]
    rfl
  refine ⟨⟨?_, ?_⟩, ?_⟩
  · rw [hlocal]
    exact congrArg Prod.fst hexec
  · rw [hlocal, hstep]
  · rw [hstep]
    exact h

end

/-- One call of any kind. -/
theorem FileInv.step {P : Platform} {st : SmbSession × FileServer} (h : FileInv st) {op : SmbOp}
    (hp : FilePromise st op) : FileInv (fileStep P st op) ∧ ActsLocally P st op := by
  obtain ⟨s, v⟩ := st
  have hnone : ∀ fd, smbSessionFileGet s fd = none → (localFiles (s, v)).opened fd = none := by
    intro fd hclosed
    simp only [localFiles, hclosed]
    rfl
  have hsome : ∀ fd file, smbSessionFileGet s fd = some file → ∃ i, v.handle fd = some i := by
    intro fd file hopen
    exact Option.isSome_iff_exists.mp (h.handles fd (by rw [hopen]; rfl))
  apply And.symm
  cases op with
  | fread fd copy bufSize =>
    cases hopen : smbSessionFileGet s fd with
    | none =>
      obtain ⟨hres, hrun⟩ := exec_spec (fread_closed P hopen copy bufSize) rfl
      refine h.closed (Prod.ext hres hrun) ?_
      show (localFiles (s, v)).read fd copy bufSize = _
      rw [LocalFiles.read, hnone fd hopen]
    | some file =>
      obtain ⟨i, hhandle⟩ := hsome fd file hopen
      exact h.fread hp hopen hhandle
  | fwrite fd buf =>
    cases hopen : smbSessionFileGet s fd with
    | none =>
      obtain ⟨hres, hrun⟩ := exec_spec (fwrite_closed P hopen buf) rfl
      refine h.closed (Prod.ext hres hrun) ?_
      show (localFiles (s, v)).write fd buf = _
      rw [LocalFiles.write, hnone fd hopen]
    | some file =>
      obtain ⟨i, hhandle⟩ := hsome fd file hopen
      exact h.fwrite hp hopen hhandle
  | fseek fd offset whence =>
    cases hopen : smbSessionFileGet s fd with
    | none =>
      refine h.closed (r := .size (-1)) ?_ ?_
      · rw [SmbOp.exec, bind_run (fseek_closed hopen offset whence)]
        rfl
      · show (localFiles (s, v)).seek fd offset whence = _
        rw [LocalFiles.seek, hnone fd hopen]
    | some file =>
      obtain ⟨i, hhandle⟩ := hsome fd file hopen
      exact h.fseek hp hopen hhandle
  | _ => exact absurd hp.fileOp Bool.false_ne_true

/-- Over every run of reads, writes and seeks on any descriptors, against a server that answers from its
disk: each call returns what it would return on local files, and at the end the positions and the disk
are those of the local files. -/
theorem files_actLocally (P : Platform) (st : SmbSession × FileServer) (ops : List SmbOp)
    (hst : FileInv st) (hpromise : Along (fileStep P) FilePromise st ops) :
    Along (fileStep P) (ActsLocally P) st ops ∧
      localFiles (ops.foldl (fileStep P) st) =
        ops.foldl (fun f op => (f.step op).2) (localFiles st) := by
  have hstep : ∀ st op, FileInv st → FilePromise st op →
      FileInv (fileStep P st op) ∧ ActsLocally P st op := fun _ _ h hp => h.step hp
  have hacts := (Along.of_invariant hstep hst hpromise).1
  refine ⟨hacts, ?_⟩
  clear hpromise hst
  induction ops generalizing st with
  | nil => rfl
  | cons op ops ih =>
    rw [List.foldl_cons, List.foldl_cons, ← hacts.1.2]
    exact ih _ hacts.2

/-- A server with one file of three bytes, open as the file 7 of the tree 5, and a session that has the
same descriptor. -/
def oneFile : FileServer where
  handle fd := if fd = smbFd 5 7 then some 0 else none
  disk _ := [1, 2, 3]

def oneFileSession : SmbSession where
  transport := .obeyed [fun request => [oneFile.reply request]]
  shares := [{ tid := 5, files := [{ fid := 7, tid := 5 }] }]

theorem oneFile_get {s : SmbSession} {position : Int}
    (hs : s.shares = [{ tid := 5, files := [{ fid := 7, tid := 5, offset := position }] }])
    {fd : UInt32} {file : SmbFile} (h : smbSessionFileGet s fd = some file) :
    fd = smbFd 5 7 ∧ file = { fid := 7, tid := 5, offset := position } := by
  rw [fileGet_eq s (fileGet_ne_zero h), hs, filesFind] at h
  simp only [List.find?_singleton, Option.bind_eq_some_iff] at h
  obtain ⟨share, hshare, hfile⟩ := h
  split at hshare
  · rename_i htid
    obtain rfl := Option.some.inj hshare
    simp only [List.find?_singleton] at hfile
    split at hfile
    · rename_i hfid
      simp only [decide_eq_true_eq] at htid hfid
      exact ⟨by rw [htid, hfid, smbFd_parts], (Option.some.inj hfile).symm⟩
    · cases hfile
  · cases hshare

theorem oneFile_inv {s : SmbSession} {position : Int} (hready : s.transport.session.ready = true)
    (hdrained : Delivers s.tcp.inbox [])
    (hs : s.shares = [{ tid := 5, files := [{ fid := 7, tid := 5, offset := position }] }])
    (hlow : 0 ≤ position) (hhigh : position < 2 ^ 63) : FileInv (s, oneFile) := by
  refine ⟨hready, hdrained, fun fd file h => ?_, fun fd h => ?_, fun fd i p h => ?_⟩
  · obtain ⟨rfl, rfl⟩ := oneFile_get hs h
    show (5 : UInt16) = smbFdTid (smbFd 5 7)
    decide
  · obtain ⟨file, hfile⟩ := Option.isSome_iff_exists.mp h
    obtain ⟨rfl, -⟩ := oneFile_get hs hfile
    rfl
  · simp only [localFiles, Option.bind_eq_some_iff, Option.map_eq_some_iff] at h
    obtain ⟨file, hfile, a, -, heq⟩ := h
    obtain ⟨-, rfl⟩ := oneFile_get hs hfile
    obtain rfl : position = p := congrArg Prod.snd heq
    exact ⟨hlow, hhigh⟩

theorem oneFile_reply_short (request : List UInt8) : (oneFile.reply request).length < 65536 := by
  rw [FileServer.reply]
  cases oneFile.requested request with
  | none => exact (by decide : (replyBytes 0xc0000008 0 0 [0, 0, 0]).length < 65536)
  | some i =>
    dsimp only
    split
    · generalize hdata : ((oneFile.disk i).drop _).take _ = data
      have hlen : data.length ≤ 3 := by
        rw [← hdata, List.length_take, List.length_drop]
        exact Nat.le_trans (Nat.min_le_right _ _) (Nat.sub_le _ _)
      simp only [readReply, replyBytes, List.length_append, List.length_replicate, le16_length,
        le32_length]
      simp only [smbMagic, List.length_cons, List.length_nil]
      omega
    · generalize UInt16.ofNat _ = n
      exact (by decide : 47 < 65536)

theorem oneFile_range {s : SmbSession} (h : FileInv (s, oneFile)) {new : Int} (hlow : 0 ≤ new)
    (hhigh : new < 2 ^ 63) (fd : UInt32) (i : Nat) (p : Int)
    (hfd : Function.update (localFiles (s, oneFile)).opened (smbFd 5 7) (some (0, new)) fd = some (i, p)) :
    0 ≤ p ∧ p < 2 ^ 63 := by
  by_cases heq : fd = smbFd 5 7
  · rw [heq, Function.update_self] at hfd
    obtain rfl : new = p := congrArg Prod.snd (Option.some.inj hfd)
    exact ⟨hlow, hhigh⟩
  · rw [Function.update_of_ne heq] at hfd
    exact h.range fd i p hfd

/-- The second byte of the file overwritten. -/
theorem files_actLocally_write :
    (localFiles ([SmbOp.fseek (smbFd 5 7) 1 (some .set), .fwrite (smbFd 5 7) [9]].foldl
      (fileStep .ascii) (oneFileSession, oneFile))).disk 0 = [1, 9, 3] := by
  let seeked : SmbSession := { oneFileSession with
    shares := [{ tid := 5, files := [{ fid := 7, tid := 5, offset := 1 }] }] }
  have hpeer : ∀ s : SmbSession, s.transport = .obeyed [fun request => [oneFile.reply request]] →
      Peer 65539 s [] [fun request => [oneFile.reply request]] := by
    intro s hs
    refine peer_obeyed (fun answer hanswer request m hm => ?_) (Nat.le_refl _) hs
    obtain rfl := List.mem_singleton.mp hanswer
    obtain rfl := List.mem_singleton.mp hm
    exact oneFile_reply_short request
  have hstep : fileStep .ascii (oneFileSession, oneFile) (.fseek (smbFd 5 7) 1 (some .set)) =
      (seeked, oneFile) := rfl
  have hfirst := oneFile_inv rfl (hpeer oneFileSession rfl).inbox rfl (by decide) (by decide)
  have hsecond := oneFile_inv rfl (hpeer seeked rfl).inbox rfl (by decide) (by decide)
  have hpromise : Along (fileStep .ascii) FilePromise (oneFileSession, oneFile)
      [.fseek (smbFd 5 7) 1 (some .set), .fwrite (smbFd 5 7) [9]] := by
    refine ⟨⟨rfl, Nat.le_refl _, (hpeer oneFileSession rfl).server 0 _ rfl, ?_⟩, ?_⟩
    · exact oneFile_range hfirst (by decide : (0 : Int) ≤ 1) (by decide)
    · rw [hstep]
      refine ⟨⟨rfl, Nat.le_refl _, (hpeer seeked rfl).server 0 _ rfl, ?_⟩, trivial⟩
      exact oneFile_range hsecond (by decide : (0 : Int) ≤ 2) (by decide)
  rw [(files_actLocally .ascii _ _ hfirst hpromise).2]
  decide +kernel

end Libdsm
