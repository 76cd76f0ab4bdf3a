import KlipperMcu.Firmware.TmcUartRead
import KlipperMcu.Host.TmcUart

/-!
# Reading a register of a stepper driver

`reg_read` of tmc_uart.py encodes a request and waits for the response that the micro-controller
reports. Between the two are the line to the driver and the timers of tmcuart.c. The driver answers
a request after a time of its choice.
-/

namespace KlipperMcu.Tmc

open Lib Sched

/-- `reg_read` when the micro-controller reports `read`. -/
def regRead (reg : UInt8) (read : List UInt8) : Option Nat := decodeRead reg read

lemma writeBit_addSerialBits_zero (d : UInt8) (data : List UInt8) :
    writeBit (addSerialBits (d :: data)) 0 = false := by
  obtain ⟨n, hn⟩ : ∃ n, (10 * (d :: data).length + 7) / 8 = n + 1 :=
    ⟨(10 * (d :: data).length + 7) / 8 - 1, by rw [List.length_cons]; omega⟩
  have hstream : stream (d :: data) % 2 = 0 := by
    unfold stream
    rw [List.map_cons, Nat.ofDigits_cons, serialBits_eq]
    omega
  have hbyte : (UInt8.ofNat (stream (d :: data) &&& 0xff)).toNat = stream (d :: data) % 256 := by
    rw [UInt8.toNat_ofNat', and_byte]
    exact Nat.mod_mod _ _
  unfold writeBit addSerialBits
  rw [pack_serialBits]
  dsimp only
  rw [hn, List.range_succ_eq_map, List.map_cons, List.getD_cons_zero, Nat.zero_mul,
    Nat.shiftRight_zero, hbyte, Nat.zero_mod, Nat.testBit_zero, Nat.mod_mod_of_dvd _ (by decide),
    hstream]
  rfl

lemma Received.reports {msg : List UInt8} {count : Nat} {l : Line}
    (h : Received (writeBit msg) count l) (hcount : count = msg.length * 8) :
    (tmcuartTask l.t).2 = some msg := by
  have hdata := map_data_eq fun k hk => h.stored k (by omega)
  simp [tmcuartTask, h.wake, h.report, h.readCount, hcount, hdata]

/-- The host reads the value that the driver sends. The driver sees the request bit by bit, and may
answer at any time after the first poll and not after the last one. -/
theorem regRead_eq_some {t : Tmcuart} {addr reg : UInt8} {v now start : Nat} {level : Nat → Bool}
    {rx : Nat → Bool × Bool} (hidle : Idle t) (hv : v < 2 ^ 32)
    (hfit : 40 * t.cfgBitTime.toNat < 2 ^ 32)
    (hafter : now + (timerFromUs 200).toNat + 44 * t.cfgBitTime.toNat < start)
    (hbefore : start ≤ now + (timerFromUs 200).toNat + 108 * t.cfgBitTime.toNat)
    (hquiet : ∀ τ, now + (timerFromUs 200).toNat + 40 * t.cfgBitTime.toNat ≤ τ → τ < start →
      (rx τ).1 = true)
    (hresponse :
      let bit := writeBit (encodeWrite 0x05 0xff reg v)
      Shows (fun k => (bit k, bit k)) start t.cfgBitTime.toNat 80 rx) :
    ∃ t', commandTmcuartSend t (encodeRead 0xf5 addr reg) 10 (UInt32.ofNat now) = some t' ∧ ∃ n,
      let l := (fire rx)^[n] ⟨t', true, now + (timerFromUs 200).toNat, level⟩
      Shows (writeBit (encodeRead 0xf5 addr reg)) (now + (timerFromUs 200).toNat)
          t.cfgBitTime.toNat 40 l.level ∧
        l.scheduled = false ∧ Idle l.t ∧
        (tmcuartTask l.t).2.bind (regRead reg) = some v := by
  have hlen := length_encodeRead 0xf5 addr reg
  have hresponseLen := length_encodeWrite 0x05 0xff reg v
  have hfirst : writeBit (encodeRead 0xf5 addr reg) 0 = false := by
    rw [encodeRead, List.cons_append, writeBit_addSerialBits_zero]
  have hresponseFirst : writeBit (encodeWrite 0x05 0xff reg v) 0 = false := by
    rw [encodeWrite, List.cons_append, writeBit_addSerialBits_zero]
  have hdecode : decodeRead reg (encodeWrite 0x05 0xff reg v) = some v :=
    decodeRead_iff.mpr ⟨hv, rfl⟩
  generalize encodeRead 0xf5 addr reg = request at *
  generalize encodeWrite 0x05 0xff reg v = response at *
  have hread : (10 : UInt8).toNat = 10 := rfl
  obtain ⟨t', hsend, n, hreceived, hshows⟩ := transaction_received rx level 10 now start
    hidle (by omega) (by omega) (by omega) (by omega) hfirst (by rwa [hlen]) hresponseFirst
    (by rwa [hlen]) (by rwa [hlen]) (by rwa [hlen]) (by rwa [hread])
  rw [hlen] at hshows
  refine ⟨t', hsend, n, hshows, hreceived.scheduled, hreceived.idle, ?_⟩
  rw [hreceived.reports (by rw [hread, hresponseLen])]
  exact hdecode

/-- A driver that answers a request for register 6 in the middle of the third poll. -/
theorem regRead_eq_some_six :
    let bit := writeBit (encodeWrite 0x05 0xff 6 0x12345678)
    let rx := carry (true, true) (fun k => (bit k, bit k)) 175400 3200
    ∃ t', commandTmcuartSend (idleLine 3200) (encodeRead 0xf5 0 6) 10 (UInt32.ofNat 1000) =
        some t' ∧ ∃ n,
      let l := (fire rx)^[n] ⟨t', true, 1000 + (timerFromUs 200).toNat, fun _ => true⟩
      Shows (writeBit (encodeRead 0xf5 0 6)) (1000 + (timerFromUs 200).toNat) 3200 40 l.level ∧
        l.scheduled = false ∧ Idle l.t ∧
        (tmcuartTask l.t).2.bind (regRead 6) = some 0x12345678 :=
  regRead_eq_some (idle_idleLine 3200) (by decide) (by decide) (by decide) (by decide)
    (fun _ _ hlt => congrArg Prod.fst (if_pos hlt)) (shows_carry _ _ _ _ _)

end KlipperMcu.Tmc
