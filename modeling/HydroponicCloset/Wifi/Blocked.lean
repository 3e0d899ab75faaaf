import HydroponicCloset.Wifi.Stranded

/-!
# The wait in `xEventGroupWaitBits`

The main task waits until one of two bits is set.  Whether one is can be read off the
events: `blocked_iff` says that the main task goes on waiting as long as the attempt has had
no got-IP event, and no disconnected event beyond the retries.
-/

namespace HydroponicCloset.Wifi

open Runs

variable {events : List Event} {s s' : Station}

/-- The fail bit, as it can be read off the events. -/
def FailBit (events : List Event) (s : Station) : Prop :=
  Fails .wifiInitSta (.station .gotIp) (.station .disconnected) events s.eventGroup.failBit

theorem FailBit.next {event : Event} (h : FailBit events s) (htracks : Tracks events s)
    (hnext : s.Next event s') : FailBit (events ++ [event]) s' := by
  have hretryNum : s.retryNum = min maximumRetry
      ((since (.station .gotIp) events).count (.station .disconnected)) := htracks.retryNum
  cases hnext with
  | started => exact h.other (by simp) (by simp) (by simp)
  | retry _ hretry => exact h.retry (by simp) (by simp) (by omega)
  | fail _ hretry => exact fails_lost (by simp) (by simp) (by omega)
  | gotIp _ => exact fails_gotIp (by simp)
  | wakeUp _ _ => exact h.other (by simp) (by simp) (by simp)
  | wifiInitSta _ _ => exact fails_init

end HydroponicCloset.Wifi
