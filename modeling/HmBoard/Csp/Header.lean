import HmBoard.Avr

/-!
# `csp_id_t` (csp.h:119-141)

The header of a CSP packet: a 32-bit word `ext` with bit-fields, `flags` in the low bits on this
little-endian target. `CspId` holds the fields; `ext` and `ofExt` are the two views of the union,
and `connMask` is `CSP_ID_CONN_MASK`, everything but the priority and the flags.
-/

namespace HmBoard

structure CspId where
  pri   : BitVec 2
  src   : BitVec 5
  dst   : BitVec 5
  dport : BitVec 6
  sport : BitVec 6
  flags : BitVec 8
deriving DecidableEq, Repr, Inhabited

namespace CspId

/-- `id.ext`. -/
def ext (i : CspId) : BitVec 32 :=
  i.pri ++ (i.src ++ (i.dst ++ (i.dport ++ (i.sport ++ i.flags))))

/-- The fields of a 32-bit word. -/
def ofExt (w : BitVec 32) : CspId where
  pri   := w.extractLsb' 30 2
  src   := w.extractLsb' 25 5
  dst   := w.extractLsb' 20 5
  dport := w.extractLsb' 14 6
  sport := w.extractLsb' 8 6
  flags := w.extractLsb' 0 8

theorem ofExt_ext (i : CspId) : ofExt i.ext = i := by
  obtain ⟨pri, src, dst, dport, sport, flags⟩ := i
  simp only [ofExt, ext, CspId.mk.injEq]
  refine ⟨?_, ?_, ?_, ?_, ?_, ?_⟩ <;>
    · ext j hj
      simp only [BitVec.getElem_extractLsb', BitVec.getLsbD_append]
      grind

/-- `CSP_ID_CONN_MASK` (csp.h:117). -/
def connMask : BitVec 32 := 0x3FFFFF00#32

/-- Headers that `csp_conn_find` takes for the same connection have one destination port. -/
theorem dport_of_connMask {i j : CspId} (h : i.ext &&& connMask = j.ext &&& connMask) :
    i.dport = j.dport := by
  have hport : ∀ i : CspId, (i.ext &&& connMask).extractLsb' 14 6 = i.dport := by
    intro i
    have hmask : connMask.extractLsb' 14 6 = BitVec.allOnes 6 := by decide
    have hext : i.ext.extractLsb' 14 6 = i.dport := congrArg CspId.dport (ofExt_ext i)
    rw [BitVec.extractLsb'_and, hmask, hext, BitVec.and_allOnes]
  rw [← hport i, ← hport j, h]

end CspId

end HmBoard
