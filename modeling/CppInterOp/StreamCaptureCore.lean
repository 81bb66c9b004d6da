import CppInterOp.Library.OpenFiles
import Mathlib.Logic.Function.Basic

/-!
The capture of the standard streams: the descriptors of the process, the file of each capture
and the stack of captures.  Calls of the C library are taken to succeed.
-/

namespace CppInterOp.StreamCapture

open OpenFiles

inductive CaptureStreamKind
  | kStdOut | kStdErr
  deriving DecidableEq

/-- What a descriptor can stand for: what the process was given, the `tmpfile()` of a capture,
or the file that an out-of-process interpreter keeps for the stream. -/
inductive Destination
  | given (number : Nat)
  | temporary (number : Nat)
  | redirection (kind : CaptureStreamKind)
  deriving DecidableEq

structure StreamCaptureInfo where
  m_TempFile : Destination
  m_FD : CaptureStreamKind
  m_DupFD : Destination
  m_OwnsFile : Bool

/-- The interpreter in use, and how many bytes the C library reads into a stream at a time. -/
structure Setting where
  outOfProcess : Bool
  blksize : Nat

structure Streams where
  descriptors : CaptureStreamKind → Destination
  files : Destination → OpenFile
  /-- What the `FILE` of a capture still buffers from an earlier reading. -/
  readBuffers : Destination → List UInt8
  /-- What was printed and has not left the buffers of `stdout` and `stderr`. -/
  unflushed : CaptureStreamKind → List UInt8
  temporaries : Nat
  redirectionStack : List StreamCaptureInfo

namespace Streams

variable (streams : Streams)

/-- The buffer of a stream hands its first bytes to the descriptor. -/
def spill (kind : CaptureStreamKind) (count : Nat) : Streams :=
  { streams with
    files := Function.update streams.files (streams.descriptors kind)
      ((streams.files (streams.descriptors kind)).write ((streams.unflushed kind).take count))
    unflushed := Function.update streams.unflushed kind ((streams.unflushed kind).drop count) }

def fflush (kind : CaptureStreamKind) : Streams :=
  streams.spill kind (streams.unflushed kind).length

def fflushAll : Streams := (streams.fflush .kStdOut).fflush .kStdErr

def print (kind : CaptureStreamKind) (bytes : List UInt8) : Streams :=
  { streams with
    unflushed := Function.update streams.unflushed kind (streams.unflushed kind ++ bytes) }

def dup2 (file : Destination) (kind : CaptureStreamKind) : Streams :=
  { streams with descriptors := Function.update streams.descriptors kind file }

def replaceFile (file : Destination) (contents : OpenFile) : Streams :=
  { streams with files := Function.update streams.files file contents }

/-- `ftruncate(fd, 0)` and `lseek(fd, 0, SEEK_SET)`. -/
def rewind (file : Destination) : Streams :=
  streams.replaceFile file (((streams.files file).ftruncate 0).lseek 0)

def tmpfile : Destination × Streams :=
  (.temporary streams.temporaries,
    { streams with
      files := Function.update streams.files (.temporary streams.temporaries) OpenFile.fresh
      readBuffers := Function.update streams.readBuffers (.temporary streams.temporaries) []
      temporaries := streams.temporaries + 1 })

/-- The seeks and the `fread` of a capture's file: they leave the offset behind what was read. -/
def readBack (setting : Setting) (file : Destination) : List UInt8 × Streams :=
  let content := (streams.files file).content
  let buffered := streams.readBuffers file
  (readWhole buffered content,
    { streams with
      files := Function.update streams.files file
        ((streams.files file).lseek (max buffered.length content.length))
      readBuffers := Function.update streams.readBuffers file
        (buffersAfter setting.blksize buffered content) })

def fclose (file : Destination) : Streams :=
  { streams with
    files := Function.update streams.files file OpenFile.fresh
    readBuffers := Function.update streams.readBuffers file [] }

end Streams

def getRedirectionFileForOutOfProcess (FD : CaptureStreamKind) : Destination := .redirection FD

/-- The file of a new capture: the interpreter's, emptied, or one of its own. -/
def openTempFile (setting : Setting) (FD : CaptureStreamKind) (streams : Streams) :
    Destination × Streams :=
  if setting.outOfProcess then
    (getRedirectionFileForOutOfProcess FD, streams.rewind (getRedirectionFileForOutOfProcess FD))
  else streams.tmpfile

def StreamCaptureInfo.create (setting : Setting) (FD : CaptureStreamKind) (streams : Streams) :
    StreamCaptureInfo × Streams :=
  let opened := openTempFile setting FD streams
  ({ m_TempFile := opened.1
     m_FD := FD
     m_DupFD := opened.2.descriptors FD
     m_OwnsFile := !setting.outOfProcess },
    (opened.2.fflush FD).dup2 opened.1 FD)

def StreamCaptureInfo.destroy (info : StreamCaptureInfo) (streams : Streams) : Streams :=
  if info.m_OwnsFile then streams.fclose info.m_TempFile else streams

def StreamCaptureInfo.GetCapturedString (setting : Setting) (info : StreamCaptureInfo)
    (streams : Streams) : List UInt8 × Streams :=
  let restored := streams.fflushAll.dup2 info.m_DupFD info.m_FD
  let read := restored.readBack setting info.m_TempFile
  -- the bytes are there with their number, but the string is made from a `char*`
  (cString (read.1 ++ [0]),
    if setting.outOfProcess then read.2.rewind info.m_TempFile else read.2)

def BeginStdStreamCapture (setting : Setting) (fd_kind : CaptureStreamKind) (streams : Streams) :
    Streams :=
  let created := StreamCaptureInfo.create setting fd_kind streams
  { created.2 with redirectionStack := created.1 :: created.2.redirectionStack }

def EndStdStreamCapture (setting : Setting) (streams : Streams) : List UInt8 × Streams :=
  match streams.redirectionStack with
  | [] => ([], streams)
  | info :: rest =>
      let captured := info.GetCapturedString setting streams
      (captured.1, { info.destroy captured.2 with redirectionStack := rest })

/-- The executor's streams are unbuffered and go to the interpreter's files, captured or not. -/
def executorWrite (kind : CaptureStreamKind) (bytes : List UInt8) (streams : Streams) : Streams :=
  let file := getRedirectionFileForOutOfProcess kind
  streams.replaceFile file ((streams.files file).write bytes)

inductive Op
  | beginCapture (fd_kind : CaptureStreamKind)
  | endCapture
  /-- The process prints, into the buffer of the stream. -/
  | print (kind : CaptureStreamKind) (bytes : List UInt8)
  /-- The C library empties part of a buffer, or all of it, of its own accord or when asked to. -/
  | spill (kind : CaptureStreamKind) (count : Nat)
  | executorWrite (kind : CaptureStreamKind) (bytes : List UInt8)
  deriving DecidableEq

def step (setting : Setting) (streams : Streams) : Op → Streams
  | .beginCapture fd_kind => BeginStdStreamCapture setting fd_kind streams
  | .endCapture => (EndStdStreamCapture setting streams).2
  | .print kind bytes => streams.print kind bytes
  | .spill kind count => streams.spill kind count
  | .executorWrite kind bytes => executorWrite kind bytes streams

end CppInterOp.StreamCapture
