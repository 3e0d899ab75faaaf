import HydroponicCloset.App.WaitingLoop

/-!
# The stored credentials

While it has no credentials, `app_main` looks for the file `/data/wifi.config` before it
waits for one over Bluetooth.  If there is none the waiting loop is started; a regular
file is scanned with the same format as the buffer `content`.
-/

namespace HydroponicCloset.App

open CMemory Scanf Bluetooth

/-- What is at `wifi_conf`. -/
inductive ConfigFile
  | missing
  | directory
  | regular (content : List UInt8)

/-- `fscanf(t, "SSID: %s PASS: %s", ssid, pass)` -/
def fscanfCredentials (content : List UInt8) : Int × List (List UInt8) :=
  scanf [] credentialsFormat content

/-- The branch for a file that is not a directory. -/
def readConfig (d : Device) (content : List UInt8) : Device :=
  let scanned := fscanfCredentials content
  -- `ok = fscanf(...) == 2` is the value of the comparison
  let ok : Int := if scanned.1 = 2 then 1 else 0
  let d := { d with
    ssid := storeToken d.ssid scanned.2[0]?
    pass := storeToken d.pass scanned.2[1]? }
  if ok ≠ 2 then d else { d with credentialsRecived := true }

/-- `if(!credentials_recived)`: the file is read, or the waiting loop is started. -/
def checkConfig (d : Device) (file : ConfigFile) : Device :=
  if d.credentialsRecived then d
  else
    match file with
    | .missing => { d with salir := true }
    | .directory => d
    | .regular content => readConfig d content

/-- **A stored file is never accepted**, as `ok` is 0 or 1. -/
theorem checkConfig_credentialsRecived (d : Device) (file : ConfigFile) :
    (checkConfig d file).credentialsRecived = d.credentialsRecived := by
  have hread : ∀ content, (readConfig d content).credentialsRecived = d.credentialsRecived := by
    intro content
    have hok : (if (fscanfCredentials content).1 = 2 then 1 else 0 : Int) ≠ 2 := by
      split_ifs <;> decide
    simp only [readConfig, if_pos hok]
  unfold checkConfig
  split_ifs
  · rfl
  · cases file with
    | missing => rfl
    | directory => rfl
    | regular content => exact hread content

end HydroponicCloset.App
