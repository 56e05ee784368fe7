import Sysknife.Lib.Framing
import Mathlib.Data.List.Basic

/-!
# Framing on the daemon socket

Every message in both directions is a little-endian `u32` length and a body.
The daemon, the command line client and the shell each have their own encoder
and decoder.
-/

namespace Sysknife

open Framing

def u32ToLeBytes (n : Nat) : List UInt8 :=
  [UInt8.ofNat n, UInt8.ofNat (n / 256), UInt8.ofNat (n / 65536), UInt8.ofNat (n / 16777216)]

def u32FromLeBytes (bytes : List UInt8) : Nat :=
  bytes.foldr (fun b n => b.toNat + 256 * n) 0

def u32Max : Nat := 4294967295

theorem u32FromLeBytes_toLeBytes {n : Nat} (h : n ≤ u32Max) :
    u32FromLeBytes (u32ToLeBytes n) = n := by
  rw [u32Max] at h
  simp only [u32ToLeBytes, u32FromLeBytes, List.foldr_cons, List.foldr_nil, UInt8.toNat_ofNat']
  omega

theorem u32ToLeBytes_fromLeBytes {bytes : List UInt8} (h : bytes.length = 4) :
    u32ToLeBytes (u32FromLeBytes bytes) = bytes := by
  match bytes, h with
  | [a, b, c, d], _ =>
    have ha := a.toNat_lt
    have hb := b.toNat_lt
    have hc := c.toNat_lt
    have hd := d.toNat_lt
    simp only [u32FromLeBytes, List.foldr_cons, List.foldr_nil, u32ToLeBytes, List.cons.injEq,
      and_true]
    refine ⟨?_, ?_, ?_, ?_⟩ <;>
      (apply UInt8.toNat_inj.mp; rw [UInt8.toNat_ofNat']; omega)

/-- The header of a frame: `(len as u32).to_le_bytes()`. -/
def u32Le : LengthHeader UInt8 where
  width := 4
  capacity := u32Max
  encode := u32ToLeBytes
  decode := u32FromLeBytes
  width_pos := by decide
  length_encode _ := rfl
  decode_encode _ := u32FromLeBytes_toLeBytes

/-! ## The daemon -/

def maxMessageBytes : Nat := 4 * 1024 * 1024

inductive FramingError where
  | io (message : String)
  | messageTooLarge (size : Nat)
  deriving DecidableEq

/-- `FramedStream::send`: the bytes written to a stream that accepts writes. -/
def FramedStream.send (data : List UInt8) : Except FramingError (List UInt8) :=
  writeFrame u32Le maxMessageBytes .messageTooLarge data

/-- `FramedStream::recv`. -/
def FramedStream.recv (inner : Chunks UInt8) : Except FramingError (List UInt8) × Chunks UInt8 :=
  readFrame u32Le maxMessageBytes .messageTooLarge (.io "early eof") inner

/-! ## The command line client -/

/-- The `std::io::Error`s the clients' framing code returns, by kind. -/
inductive IoError where
  | unexpectedEof
  | invalidInput (message : String)
  | invalidData (message : String)
  deriving DecidableEq

def maxFrameBytes : Nat := 4 * 1024 * 1024

def Cli.writeFramed (msg : List UInt8) : Except IoError (List UInt8) :=
  writeFrame u32Le u32Max (fun _ => .invalidInput "message too large") msg

def Cli.readFramed (stream : Chunks UInt8) : Except IoError (List UInt8) × Chunks UInt8 :=
  readFrame u32Le maxFrameBytes (fun len => .invalidData s!"frame too large: {len} bytes")
    .unexpectedEof stream

def Cli.writeFramedAsync (msg : List UInt8) : Except IoError (List UInt8) :=
  writeFrame u32Le u32Max (fun _ => .invalidInput "message too large") msg

def Cli.readFramedAsync (stream : Chunks UInt8) :
    Except IoError (List UInt8) × Chunks UInt8 :=
  readFrame u32Le maxFrameBytes (fun len => .invalidData s!"frame too large: {len} bytes")
    .unexpectedEof stream

/-! ## The shell -/

def maxResponseBytes : Nat := 4 * 1024 * 1024

def Shell.writeFramed (msg : List UInt8) : Except IoError (List UInt8) :=
  writeFrame u32Le u32Max (fun _ => .invalidInput "message exceeds 4 GiB limit") msg

def Shell.readFramed (stream : Chunks UInt8) : Except IoError (List UInt8) × Chunks UInt8 :=
  readFrame u32Le maxResponseBytes
    (fun len => .invalidData s!"daemon response too large: {len} bytes") .unexpectedEof stream

def Shell.asyncWriteFramed (msg : List UInt8) : Except IoError (List UInt8) :=
  writeFrame u32Le u32Max (fun _ => .invalidInput "message exceeds 4 GiB limit") msg

def Shell.asyncReadFramed (stream : Chunks UInt8) :
    Except IoError (List UInt8) × Chunks UInt8 :=
  readFrame u32Le maxResponseBytes
    (fun len => .invalidData s!"daemon response too large: {len} bytes") .unexpectedEof stream

/-! ## Every pair of endpoints -/

inductive Endpoint where
  | daemon | cli | cliAsync | shell | shellAsync
  deriving DecidableEq, Repr

namespace Endpoint

def Error : Endpoint → Type
  | .daemon => FramingError
  | _ => IoError

def send : (e : Endpoint) → List UInt8 → Except e.Error (List UInt8)
  | .daemon => FramedStream.send
  | .cli => Cli.writeFramed
  | .cliAsync => Cli.writeFramedAsync
  | .shell => Shell.writeFramed
  | .shellAsync => Shell.asyncWriteFramed

def recv : (e : Endpoint) → Chunks UInt8 → Except e.Error (List UInt8) × Chunks UInt8
  | .daemon => FramedStream.recv
  | .cli => Cli.readFramed
  | .cliAsync => Cli.readFramedAsync
  | .shell => Shell.readFramed
  | .shellAsync => Shell.asyncReadFramed

def eof : (e : Endpoint) → e.Error
  | .daemon => .io "early eof"
  | .cli | .cliAsync | .shell | .shellAsync => .unexpectedEof

/-- The error for a header that announces `len` bytes. -/
def tooLarge : (e : Endpoint) → Nat → e.Error
  | .daemon => .messageTooLarge
  | .cli | .cliAsync => fun len => .invalidData s!"frame too large: {len} bytes"
  | .shell | .shellAsync => fun len => .invalidData s!"daemon response too large: {len} bytes"

/-- The decoders are one decoder with different errors. -/
theorem recv_eq (e : Endpoint) :
    e.recv = readFrame u32Le maxMessageBytes e.tooLarge e.eof := by
  cases e <;> rfl

/-- What has been read off a stream stood in front of it as a frame. -/
theorem recv_ok (e : Endpoint) {stream rest : Chunks UInt8} {raw : List UInt8}
    (h : e.recv stream = (.ok raw, rest)) :
    stream.flatten = u32Le.frame raw ++ rest.flatten ∧ raw.length ≤ maxMessageBytes := by
  rw [e.recv_eq] at h
  obtain ⟨len, hwidth, hdecode, hlimit, hstream⟩ := readFrame_ok h
  have hlen : u32ToLeBytes raw.length = len := by
    rw [← hdecode]
    exact u32ToLeBytes_fromLeBytes hwidth
  refine ⟨?_, hlimit⟩
  rw [hstream, LengthHeader.frame, List.append_assoc]
  show _ = u32ToLeBytes raw.length ++ _
  rw [hlen]

theorem send_ok (e : Endpoint) {msg : List UInt8} (h : msg.length ≤ maxMessageBytes) :
    e.send msg = .ok (u32Le.frame msg) := by
  have hmax : msg.length ≤ u32Max := Nat.le_trans h (by decide)
  have hclient (reason : String) :
      writeFrame u32Le u32Max (fun _ => IoError.invalidInput reason) msg =
        .ok (u32Le.frame msg) := writeFrame_ok hmax
  cases e with
  | daemon => exact writeFrame_ok h
  | cli | cliAsync => exact hclient "message too large"
  | shell | shellAsync => exact hclient "message exceeds 4 GiB limit"

end Endpoint

/-- Messages of at most 4 MiB survive any chunking between any two endpoints,
all endpoints put the same bytes on the wire, and all read every stream alike:
the same messages, a refusal at the same headers, the same bytes left. -/
theorem framing_round_trip (sender receiver : Endpoint) (msgs : List (List UInt8))
    (hmsgs : ∀ msg ∈ msgs, msg.length ≤ maxMessageBytes) :
    ∃ wire, sendAll sender.send msgs = .ok wire ∧ sendAll receiver.send msgs = .ok wire ∧
      (∀ (chunks : Chunks UInt8) (extra : Nat), chunks.flatten = wire →
        recvTimes receiver.recv (msgs.length + extra) chunks =
          msgs.map .ok ++ List.replicate extra (.error receiver.eof)) ∧
      (∀ (chunks : Chunks UInt8) (len rest : List UInt8), chunks.flatten = len ++ rest →
        len.length = 4 → maxMessageBytes < u32FromLeBytes len →
        (receiver.recv chunks).1 = .error (receiver.tooLarge (u32FromLeBytes len)) ∧
          (receiver.recv chunks).2.flatten = rest) ∧
      ∀ chunks : Chunks UInt8,
        (sender.recv chunks).1.toOption = (receiver.recv chunks).1.toOption ∧
          (sender.recv chunks).2 = (receiver.recv chunks).2 := by
  refine ⟨msgs.flatMap u32Le.frame, sendAll_ok fun m hm => sender.send_ok (hmsgs m hm),
    sendAll_ok fun m hm => receiver.send_ok (hmsgs m hm), ?_, ?_, ?_⟩
  · intro chunks extra hwire
    rw [receiver.recv_eq]
    exact recvTimes_frames extra hwire hmsgs (by decide)
  · intro chunks len rest hchunks hwidth hlimit
    rw [receiver.recv_eq]
    exact readFrame_oversized hchunks hwidth hlimit
  · intro chunks
    rw [sender.recv_eq, receiver.recv_eq]
    exact readFrame_errors chunks

theorem framing_round_trip_short :
    ∃ wire, sendAll FramedStream.send [[1, 2, 3], []] = .ok wire ∧
      wire = [3, 0, 0, 0, 1, 2, 3, 0, 0, 0, 0] ∧
      recvTimes Shell.readFramed 3 [[3, 0], [0, 0, 1], [2, 3, 0, 0, 0], [0]] =
        [.ok [1, 2, 3], .ok [], .error .unexpectedEof] := by
  obtain ⟨wire, hsend, -, hrecv, -⟩ :=
    framing_round_trip .daemon .shell [[1, 2, 3], []] (by decide)
  have hwire : wire = [3, 0, 0, 0, 1, 2, 3, 0, 0, 0, 0] := by
    have hbytes : sendAll FramedStream.send [[1, 2, 3], []] =
        .ok [3, 0, 0, 0, 1, 2, 3, 0, 0, 0, 0] := by decide
    exact (Except.ok.inj (hbytes.symm.trans hsend)).symm
  refine ⟨wire, hsend, hwire, ?_⟩
  exact hrecv [[3, 0], [0, 0, 1], [2, 3, 0, 0, 0], [0]] 1 (by rw [hwire]; decide)

end Sysknife
