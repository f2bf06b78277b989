import Rcopy.DatagramLengths
import Rcopy.Wire

/-!
# The sizes of a session

The sizes of rcopy reach the server by the filename PDU, where the window size loses all
but its last 16 bits. Nothing tells rcopy, which keeps its own; and a window size that is
a multiple of 2^16 leaves the child no window at all.
-/

namespace Rcopy

/-- How many packets the child sends before it waits for an RR. -/
def firstWindow (windowSize : Int) : Int :=
  if windowSize % 65536 = 0 then 0 else windowSize % 65536 + 1

section Sizes

variable (params : RcopyParams) (beyond : UInt8) (file : List UInt8)

theorem serverSession_windowSize :
    ((serverSession params beyond file).windowSize.toNat : Int) = params.windowSize % 65536 := by
  have hsize : (serverSession params beyond file).windowSize.toNat =
      (toU32 params.windowSize).toNat % 65536 := by
    rw [serverSession, requestOf_filenameDatagram, sessionOf, UInt16.toNat_toUInt32,
      UInt32.toNat_toUInt16]
  have hnat := toU32_toNat params.windowSize
  rw [hsize]
  omega

theorem serverSession_bufferSize (h₀ : 0 < params.bufferSize) (h₁ : params.bufferSize ≤ 65535) :
    ((serverSession params beyond file).bufferSize.toNat : Int) = params.bufferSize := by
  have hnat := toU16_toNat params.bufferSize
  rw [serverSession, requestOf_filenameDatagram, sessionOf]
  dsimp only
  omega

/-- Unless the window is lost on the way, the child knows the buffer size of rcopy. -/
theorem sameSizes_serverSession (socketNum : Int) (hw : 0 < params.windowSize)
    (h₀ : 0 < params.bufferSize) (h₁ : params.bufferSize ≤ 1400)
    (hmod : params.windowSize % 65536 ≠ 0) :
    SameSizes (serverSession params beyond file) (clientOf params socketNum) := by
  have hwindow := serverSession_windowSize params beyond file
  constructor
  · exact ⟨hw, h₀, h₁⟩
  · exact (serverSession_bufferSize params beyond file h₀ (by omega)).symm
  · omega
  · omega

end Sizes

end Rcopy
