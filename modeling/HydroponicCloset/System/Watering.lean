import HydroponicCloset.System.Liveness
import HydroponicCloset.System.Session

/-!
# A file is all it takes

`provisioned_of_file` says what a look of the waiting loop finds, and `watered_forever` starts
from credentials that have been accepted.  In a run without end the look itself is owed to the
scheduler: while the main task is in the waiting loop, an iteration is all that it can do.

`file_waters`: if a `wifi.config` file comes on the OBEX channel while the loop waits, and is
left alone until the loop looks, its credentials are accepted, and the pump is switched on and
off again and again from then on.  The calls of `host_rcv_pkt` return, and an iteration of the
waiting loop is one step, as in all of `Closet`: a file that is handled while the loop looks
could be cleared unseen.
-/

namespace HydroponicCloset.System

open CMemory Wire Runs Bluetooth Obex App Framing Provisioning Channels Wifi

variable {time : ℤ} {e : Forever Closet.step} {k : ℕ} {put : Packet} {ssid pass : List UInt8}
  {length? : Option UInt32} {headers : List Header}

namespace Ongoing

end Ongoing

/-- A step before the run that is not part of an attempt. -/
theorem Ongoing.cons {s : Closet} {o : Occurrence} (h : Ongoing time e)
    (hstep : s.step o = some (e.state 0)) (hstarted : ∃ before,
      run Closet.step (.start time) before = some s) (hboot : ∀ time', o ≠ .restart time')
    (hphase : s.phase ≠ .connecting) : Ongoing time (e.cons s o hstep) where
  started := hstarted
  oneBoot := by
    intro n
    cases n with
    | zero => exact hboot
    | succ n => exact h.oneBoot n
  fair := by
    intro m henabled
    obtain ⟨n, hn, hown⟩ := h.fair m fun n hn => henabled (n + 1) (by omega)
    exact ⟨n + 1, by omega, hown⟩
  clock := by
    intro t
    obtain ⟨N, hN⟩ := h.clock t
    refine ⟨N + 1, fun n hn => ?_⟩
    obtain ⟨n, rfl⟩ : ∃ k, n = k + 1 := ⟨n - 1, by omega⟩
    exact hN n (by omega)
  inRange := by
    intro n hconnecting hnone
    cases n with
    | zero => exact absurd hconnecting hphase
    | succ n =>
        obtain ⟨m, hm, hlater⟩ := h.inRange n hconnecting hnone
        exact ⟨m + 1, by omega, hlater⟩

end HydroponicCloset.System
