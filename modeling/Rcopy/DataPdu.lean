import Rcopy.Machine

/-!
# The data PDU

A data PDU is the packet number in network order, two checksum bytes, flag 16
and the payload. The receiver never reads the checksum.
-/

namespace Rcopy

open Bytes

def dataPdu (seq : UInt32) (checksum : UInt16) (payload : List UInt8) : List UInt8 :=
  store32 (htonl seq) ++ store16 checksum ++ [16] ++ payload

variable (seq : UInt32) (checksum : UInt16) (payload rest : List UInt8)

@[simp] theorem length_dataPdu : (dataPdu seq checksum payload).length = 7 + payload.length := by
  simp [dataPdu]
  omega

theorem dataPdu_ne_nil : dataPdu seq checksum payload ≠ [] := by
  intro h
  have := congrArg List.length h
  simp at this

@[simp] theorem seqOf_dataPdu_append : seqOf (dataPdu seq checksum payload ++ rest) = seq := by
  simp only [dataPdu, List.append_assoc]
  exact seqOf_store32 _ _

@[simp] theorem seqOf_dataPdu : seqOf (dataPdu seq checksum payload) = seq := by
  simpa using seqOf_dataPdu_append seq checksum payload []

theorem dataPdu_eq_header : dataPdu seq checksum payload =
    (store32 (htonl seq) ++ store16 checksum) ++ (16 :: payload) := by
  simp [dataPdu]

@[simp] theorem flagOf_dataPdu_append : flagOf (dataPdu seq checksum payload ++ rest) = 16 := by
  rw [flagOf, dataPdu_eq_header, List.append_assoc, List.getD_eq_getElem?_getD,
    List.getElem?_append_right (by simp)]
  simp

@[simp] theorem flagOf_dataPdu : flagOf (dataPdu seq checksum payload) = 16 := by
  simpa using flagOf_dataPdu_append seq checksum payload []

@[simp] theorem drop_dataPdu_append :
    (dataPdu seq checksum payload ++ rest).drop 7 = payload ++ rest := by
  have h : (store32 (htonl seq) ++ store16 checksum ++ [16]).length = 7 := by simp
  rw [dataPdu, List.append_assoc _ payload, List.drop_left' h]

end Rcopy
