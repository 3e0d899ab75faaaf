import HydroponicCloset.App.StoredFile

/-!
# The outer loop of `app_main`

A pass of `while(1)` connects if there are credentials, and goes into the endless loop if
there is a connection.  Otherwise it starts Bluetooth, and looks for the stored file, or
waits for one over Bluetooth until there are credentials.

Only the waiting loop brings credentials: a stored file is never accepted.  So a first pass
that finds anything at the path of the file ends without credentials, and the second one
starts Bluetooth again (`started_once_iff`).
-/

namespace HydroponicCloset.App

open Bluetooth Runs

/-- What `init_bt` has created. -/
structure Tasks where
  queue : ℕ := 0
  send : ℕ := 0
  btAdvtTask : ℕ := 0

/-- `init_bt`, with the result of `start_bt`. -/
def initBt (startBt : Bool) (t : Tasks) : Tasks :=
  if startBt then ⟨t.queue + 1, t.send + 1, t.btAdvtTask + 1⟩ else t

/-- What a pass meets with: the `*wifi_ok` that `wifi_init_sta` leaves if it returns, the
result of `start_bt`, what is at `wifi_conf`, and what each iteration of the waiting loop
finds in the globals of the Bluetooth stack. -/
structure Environment where
  wifiInitSta : Option Bool
  startBt : Bool
  file : ConfigFile
  polls : List Globals

/-- The variables of `app_main`, and the tasks it has started. -/
structure Main where
  device : Device
  wifiOk : Bool
  tasks : Tasks

/-- `app_main` at its first pass. -/
def Main.start : Main := ⟨waiting, false, {}⟩

/-- `while(salir)`; `none` if it goes on after all the polls. -/
def waitingLoop : List Globals → Device → Option Device
  | [], d => if d.salir then none else some d
  | g :: polls, d =>
      if d.salir then waitingLoop polls (loopIteration { d with globals := g }) else some d

/-- `if(credentials_recived) wifi_init_sta(ssid,pass);` -/
def Main.connect (m : Main) (e : Environment) : Option Main :=
  if m.device.credentialsRecived then e.wifiInitSta.map fun ok => { m with wifiOk := ok }
  else some m

/-- `if(!credentials_recived)` -/
def Main.provision (m : Main) (e : Environment) : Option Main :=
  if m.device.credentialsRecived then some m
  else
    let m := { m with tasks := initBt e.startBt m.tasks, device := checkConfig m.device e.file }
    match e.file with
    | .missing => (waitingLoop e.polls m.device).map fun d => { m with device := d }
    | _ => some m

/-- A pass; `none` if it does not end. -/
def Main.pass (m : Main) (e : Environment) : Option Main :=
  (m.connect e).bind fun m => if m.wifiOk then none else m.provision e

/-- The calls that are meant to be made once. -/
inductive MainCall
  | wifiInitSta
  | initBt
  deriving DecidableEq

/-- The calls of a pass. -/
def Main.calls (m : Main) (_ : Environment) : List MainCall :=
  if m.device.credentialsRecived then [.wifiInitSta]
  else if m.wifiOk then []
  else [.initBt]

/-! ## Credentials -/

/-- The waiting loop is left with credentials. -/
theorem loopIteration_salir {d : Device} (hsalir : d.salir = true)
    (hleft : (loopIteration d).salir = false) : (loopIteration d).credentialsRecived = true := by
  have hsame : (loopIteration d).salir = (tryCredentials d).salir := rfl
  show (tryCredentials d).credentialsRecived = true
  rw [hsame] at hleft
  unfold tryCredentials at hleft ⊢
  dsimp only at hleft ⊢
  split_ifs at hleft ⊢
  · rfl
  · rw [hsalir] at hleft
    cases hleft
  · rw [hsalir] at hleft
    cases hleft

theorem waitingLoop_credentials {polls : List Globals} {d d' : Device}
    (hd : d.salir = false → d.credentialsRecived = true) (h : waitingLoop polls d = some d') :
    d'.credentialsRecived = true := by
  induction polls generalizing d with
  | nil =>
      rw [waitingLoop] at h
      split_ifs at h with hsalir
      obtain rfl := Option.some.inj h
      exact hd (Bool.eq_false_iff.mpr hsalir)
  | cons g polls ih =>
      rw [waitingLoop] at h
      split_ifs at h with hsalir
      · have hnext : (loopIteration { d with globals := g }).salir = false →
            (loopIteration { d with globals := g }).credentialsRecived = true :=
          loopIteration_salir hsalir
        exact ih hnext h
      · obtain rfl := Option.some.inj h
        exact hd (Bool.eq_false_iff.mpr hsalir)

variable {m m' : Main} {e : Environment}

/-- The passes that end, with what they leave. -/
inductive Main.Next (m : Main) (e : Environment) : Main → Prop
  | connected (ok : Bool) (hm : m.device.credentialsRecived = true) :
      m.Next e { m with wifiOk := ok }
  | found (hm : m.device.credentialsRecived = false) (hok : m.wifiOk = false)
      (hfile : e.file ≠ .missing) :
      m.Next e { m with tasks := initBt e.startBt m.tasks, device := checkConfig m.device e.file }
  | waited (d : Device) (hm : m.device.credentialsRecived = false) (hok : m.wifiOk = false)
      (hfile : e.file = .missing) (hd : d.credentialsRecived = true) :
      m.Next e { m with tasks := initBt e.startBt m.tasks, device := d }

theorem Main.pass_found (hm : m.device.credentialsRecived = false) (hok : m.wifiOk = false)
    (hfile : e.file ≠ .missing) :
    m.pass e = some
      { m with tasks := initBt e.startBt m.tasks, device := checkConfig m.device e.file } := by
  have hno : ¬ m.device.credentialsRecived = true := by simp [hm]
  rw [Main.pass, Main.connect, if_neg hno, Option.bind_some, if_neg (by simp [hok]),
    Main.provision, if_neg hno]
  cases hfound : e.file with
  | missing => exact absurd hfound hfile
  | directory => rfl
  | regular content => rfl

/-- **What a pass can do.** -/
theorem Main.next_of_pass (h : m.pass e = some m') : m.Next e m' := by
  cases hm : m.device.credentialsRecived with
  | true =>
      rw [Main.pass, Main.connect, if_pos hm] at h
      obtain ⟨mid, hconnect, hmid⟩ := Option.bind_eq_some_iff.mp h
      obtain ⟨ok, -, rfl⟩ := Option.map_eq_some_iff.mp hconnect
      split_ifs at hmid
      rw [Main.provision, if_pos hm] at hmid
      obtain rfl := Option.some.inj hmid
      exact .connected ok hm
  | false =>
      have hno : ¬ m.device.credentialsRecived = true := by simp [hm]
      have hok : m.wifiOk = false := by
        cases hok : m.wifiOk with
        | false => rfl
        | true => simp [Main.pass, Main.connect, hno, hok] at h
      by_cases hfile : e.file = .missing
      · rw [Main.pass, Main.connect, if_neg hno, Option.bind_some, if_neg (by simp [hok]),
          Main.provision, if_neg hno, hfile] at h
        obtain ⟨d, hd, rfl⟩ := Option.map_eq_some_iff.mp h
        have hsalir : (checkConfig m.device .missing).salir = true := by
          rw [checkConfig, if_neg hno]
        have hwaits : (checkConfig m.device .missing).salir = false →
            (checkConfig m.device .missing).credentialsRecived = true := by
          intro hleft
          rw [hsalir] at hleft
          cases hleft
        exact .waited d hm hok hfile (waitingLoop_credentials hwaits hd)
      · rw [Main.pass_found hm hok hfile] at h
        obtain rfl := Option.some.inj h
        exact .found hm hok hfile

theorem Main.Next.kept (h : m.Next e m') (hm : m.device.credentialsRecived = true) :
    m'.device.credentialsRecived = true := by
  cases h with
  | connected => exact hm
  | found hnone => exact absurd hm (by simp [hnone])
  | waited _ hnone => exact absurd hm (by simp [hnone])

/-! ## The calls of `init_bt` -/

/-- The calls of `init_bt` in a run. -/
def initBtCalls (m : Main) (es : List Environment) : ℕ :=
  (trace Main.pass Main.calls m es).count .initBt

theorem initBtCalls_credentials (hm : m.device.credentialsRecived = true) (es : List Environment) :
    initBtCalls m es = 0 := by
  unfold initBtCalls
  induction es generalizing m with
  | nil => rfl
  | cons e rest ih =>
      have hnow : (m.calls e).count .initBt = 0 := by
        rw [Main.calls, if_pos hm]
        rfl
      rw [trace, List.count_append, hnow, Nat.zero_add]
      cases hpass : m.pass e with
      | none => rfl
      | some m' => exact ih ((Main.next_of_pass hpass).kept hm)

theorem initBtCalls_cons (hm : m.device.credentialsRecived = false) (hok : m.wifiOk = false)
    (es : List Environment) :
    initBtCalls m (e :: es) = 1 + (m.pass e).elim 0 fun m' => initBtCalls m' es := by
  unfold initBtCalls
  rw [trace, List.count_append, Main.calls, if_neg (by simp [hm]), if_neg (by simp [hok])]
  cases m.pass e <;> rfl

/-- A call of `init_bt` creates one more of everything, if Bluetooth can be started. -/
theorem Main.Next.tasks (h : m.Next e m') (hstart : e.startBt = true) :
    m'.tasks = ⟨m.tasks.queue + (m.calls e).count .initBt,
      m.tasks.send + (m.calls e).count .initBt,
      m.tasks.btAdvtTask + (m.calls e).count .initBt⟩ := by
  have hcalls : m.device.credentialsRecived = false → m.wifiOk = false →
      (m.calls e).count .initBt = 1 := by
    intro hm hok
    rw [Main.calls, if_neg (by simp [hm]), if_neg (by simp [hok])]
    rfl
  cases h with
  | connected ok hm =>
      rw [Main.calls, if_pos hm]
      rfl
  | found hm hok => rw [hcalls hm hok, initBt, if_pos hstart]
  | waited _ hm hok => rw [hcalls hm hok, initBt, if_pos hstart]

/-- There are as many queues, send tasks and `btAdvtTask`s as there were calls. -/
theorem tasks_run {es : List Environment} (hstart : ∀ e ∈ es, e.startBt = true)
    (hrun : run Main.pass .start es = some m) :
    m.tasks = ⟨initBtCalls .start es, initBtCalls .start es, initBtCalls .start es⟩ := by
  refine run_outputs (fun (calls : List MainCall) (m : Main) => m.tasks =
    ⟨calls.count .initBt, calls.count .initBt, calls.count .initBt⟩) ?_ rfl hrun
  intro calls m e m' he htasks hpass
  rw [(Main.next_of_pass hpass).tasks (hstart e he), htasks, List.count_append]

/-- **Bluetooth is started at most once** if and only if there is one pass only, or the
first one finds no stored file. -/
theorem started_once_iff (es : List Environment) :
    initBtCalls .start es ≤ 1 ↔
      ∀ first second rest, es = first :: second :: rest → first.file = .missing := by
  constructor
  · rintro honce first second rest rfl
    by_contra hfile
    have hpass : Main.start.pass first = some _ := Main.pass_found rfl rfl hfile
    have hrejected : (checkConfig waiting first.file).credentialsRecived = false :=
      checkConfig_credentialsRecived waiting first.file
    rw [initBtCalls_cons rfl rfl, hpass, Option.elim_some, initBtCalls_cons hrejected rfl] at honce
    omega
  · intro hfirst
    match es with
    | [] => exact Nat.zero_le _
    | first :: rest =>
        rw [initBtCalls_cons rfl rfl]
        cases hpass : Main.start.pass first with
        | none => exact le_refl 1
        | some m' =>
            rw [Option.elim_some]
            match rest with
            | [] => exact le_refl 1
            | second :: rest =>
                have hfile := hfirst first second rest rfl
                cases Main.next_of_pass hpass with
                | connected _ hm => cases hm
                | found _ _ hfound => exact absurd hfile hfound
                | waited d _ _ _ hd => rw [initBtCalls_credentials hd]

/-- Two passes that find a file of which the scan takes one string only. -/
def oneString : List Environment :=
  List.replicate 2 ⟨none, true, .regular (ascii "SSID: a"), []⟩

theorem started_twice :
    (run Main.pass .start oneString).map (fun m => m.tasks.send) = some 2 ∧
      ¬ initBtCalls .start oneString ≤ 1 := by
  decide

end HydroponicCloset.App
