import Strongroom.Config
import Strongroom.Proofs.Ledger.Command
import Strongroom.Proofs.Text.Base64
import Strongroom.Proofs.Text.Blank
import Strongroom.Proofs.Text.Decimal

/-!
# Which variables make a configuration

Numbers that cannot be read give way to their defaults, so they never stand in the way.  What does
is half a certificate, half a bootstrap, or text where base64 is due: without these, and only
without these, variables make a configuration (`Coherent`).  What it holds can be read off the
variables one by one (`Describes`), and this does not depend on blanks around numbers and base64
(`Respaced`).

What a variable gives is said here in terms of its text alone: a text that is not blank
(`GivesText`), a number (`GivesNumber`) or bytes (`GivesBytes`).
-/

namespace Strongroom

open Text (IsBlankText)

namespace Variables

/-! ### What a variable gives -/

/-- A variable is set to a text that is not blank. -/
def GivesText (vars : Variables) (name text : String) : Prop :=
  vars name = some text ∧ ¬ IsBlankText text

/-- A variable is set. -/
def IsSet (vars : Variables) (name : String) : Prop := ∃ text, vars.GivesText name text

/-- The text of a variable, trimmed, spells a number below a bound. -/
def GivesNumber (vars : Variables) (name : String) (bound n : Nat) : Prop :=
  ∃ text, vars.GivesText name text ∧ Decimal.Spells (Text.trimChars text.toList) n ∧ n < bound

/-- The text of a variable, trimmed, is that of a byte string in base64. -/
def GivesBytes (vars : Variables) (name : String) (bytes : Bytes) : Prop :=
  ∃ text, vars.GivesText name text ∧ Base64.encode bytes = Text.trim text

section

variable {vars : Variables} {name text : String} {bytes : Bytes}

theorem value_eq_some_iff : vars.value name = some text ↔ vars.GivesText name text := by
  rw [value, Option.filter_eq_some_iff, GivesText, ← Text.trim_isEmpty_iff]
  simp

theorem value_eq_none_iff : vars.value name = none ↔ ¬ vars.IsSet name := by
  simp only [IsSet, ← value_eq_some_iff, Option.eq_none_iff_forall_ne_some, not_exists, ne_eq]

/-- The number that is read from a variable is the one that it gives. -/
theorem bind_ofTrimmed?_eq_some_iff {bound n : Nat} :
    (vars.value name).bind (Decimal.ofTrimmed? bound) = some n ↔
      vars.GivesNumber name bound n := by
  simp only [Option.bind_eq_some_iff, value_eq_some_iff, Decimal.ofTrimmed?_eq_some_iff,
    GivesNumber]

/-- A byte string that a variable gives is not empty, for the text is not blank. -/
theorem GivesBytes.ne_nil (h : vars.GivesBytes name bytes) : bytes ≠ [] := by
  rintro rfl
  obtain ⟨text, ⟨-, hblank⟩, hencode⟩ := h
  refine hblank (Text.trim_isEmpty_iff.1 ?_)
  rw [← hencode]
  rfl

theorem base64_eq_none_iff : vars.base64 name = .ok none ↔ ¬ vars.IsSet name := by
  rw [← value_eq_none_iff, base64]
  cases vars.value name with
  | none => simp
  | some text =>
    simp only [reduceCtorEq, iff_false]
    cases Base64.decode? (Text.trim text) <;> simp

theorem base64_eq_some_iff :
    vars.base64 name = .ok (some bytes) ↔ vars.GivesBytes name bytes := by
  simp only [GivesBytes, ← value_eq_some_iff, ← Base64.decode?_eq_some_iff]
  rw [base64]
  cases vars.value name with
  | none => simp
  | some text =>
    simp only [Option.some_inj, exists_eq_left']
    cases Base64.decode? (Text.trim text) <;> simp

end

/-! ### Which variables are coherent -/

/-- Everything that belongs to an administrator is there. -/
structure HasAdmin (vars : Variables) : Prop where
  password : vars.IsSet "BOOTSTRAP_ADMIN_PASSWORD"
  publicKey : ∃ bytes, vars.GivesBytes "BOOTSTRAP_ADMIN_PUBLIC_KEY" bytes
  groupKey : ∃ bytes, vars.GivesBytes "BOOTSTRAP_ADMIN_GROUP_KEY" bytes

/-- Everything that belongs to the supergroup is there, and so it is for the administrator if there
is to be one. -/
structure HasBootstrap (vars : Variables) : Prop where
  publicKey : ∃ bytes, vars.GivesBytes "SUPER_GROUP_PUBLIC_KEY" bytes
  sealedKey : ∃ bytes, vars.GivesBytes "SUPER_GROUP_SEALED_KEY" bytes
  admin : vars.IsSet "BOOTSTRAP_ADMIN_NAME" → vars.HasAdmin

/-- Nothing is half given. -/
structure Coherent (vars : Variables) : Prop where
  tls : vars.IsSet "TLS_CERT_PATH" ↔ vars.IsSet "TLS_KEY_PATH"
  bootstrap : vars.IsSet "SUPER_GROUP_PUBLIC_KEY" → vars.HasBootstrap

/-! ### What the parts are read as -/

section

variable {vars : Variables}

theorem needed_eq_ok_iff {α : Type} {name other : String} {x : Option α} {a : α} :
    needed name other x = .ok a ↔ x = some a := by
  cases x <;> simp [needed]

theorem tls_eq_some_iff {paths : TlsPaths} : vars.tls = .ok (some paths) ↔
    vars.GivesText "TLS_CERT_PATH" paths.cert ∧ vars.GivesText "TLS_KEY_PATH" paths.key := by
  rw [← value_eq_some_iff, ← value_eq_some_iff, tls]
  obtain ⟨cert, key⟩ := paths
  cases vars.value "TLS_CERT_PATH" <;> cases vars.value "TLS_KEY_PATH" <;> simp

theorem tls_eq_none_iff : vars.tls = .ok none ↔
    ¬ vars.IsSet "TLS_CERT_PATH" ∧ ¬ vars.IsSet "TLS_KEY_PATH" := by
  rw [← value_eq_none_iff, ← value_eq_none_iff, tls]
  cases vars.value "TLS_CERT_PATH" <;> cases vars.value "TLS_KEY_PATH" <;> simp

theorem admin_eq_none_iff : vars.admin = .ok none ↔ ¬ vars.IsSet "BOOTSTRAP_ADMIN_NAME" := by
  rw [← value_eq_none_iff, admin]
  cases vars.value "BOOTSTRAP_ADMIN_NAME" with
  | none => simp
  | some name =>
    simp only [reduceCtorEq, iff_false]
    intro h
    obtain ⟨password, -, h⟩ := of_bind_eq_ok h
    obtain ⟨key, -, h⟩ := of_bind_eq_ok h
    obtain ⟨publicKey, -, h⟩ := of_bind_eq_ok h
    obtain ⟨key', -, h⟩ := of_bind_eq_ok h
    obtain ⟨groupKey, -, h⟩ := of_bind_eq_ok h
    cases h

/-- What the settings of an administrator are read from. -/
structure DescribesAdmin (vars : Variables) (a : AdminSettings) : Prop where
  name : vars.GivesText "BOOTSTRAP_ADMIN_NAME" a.name
  password : vars.GivesText "BOOTSTRAP_ADMIN_PASSWORD" a.password
  publicKey : vars.GivesBytes "BOOTSTRAP_ADMIN_PUBLIC_KEY" a.publicKey
  groupKey : vars.GivesBytes "BOOTSTRAP_ADMIN_GROUP_KEY" a.groupKey

theorem admin_eq_some_iff {a : AdminSettings} :
    vars.admin = .ok (some a) ↔ vars.DescribesAdmin a := by
  constructor
  · intro h
    rw [admin] at h
    cases hname : vars.value "BOOTSTRAP_ADMIN_NAME" with
    | none =>
      rw [hname] at h
      cases h
    | some name =>
      rw [hname] at h
      obtain ⟨password, hpassword, h⟩ := of_bind_eq_ok h
      obtain ⟨key, hkey, h⟩ := of_bind_eq_ok h
      obtain ⟨publicKey, hpublicKey, h⟩ := of_bind_eq_ok h
      obtain ⟨key', hkey', h⟩ := of_bind_eq_ok h
      obtain ⟨groupKey, hgroupKey, h⟩ := of_bind_eq_ok h
      cases h
      rw [needed_eq_ok_iff] at hpassword hpublicKey hgroupKey
      subst hpublicKey hgroupKey
      exact ⟨value_eq_some_iff.1 hname, value_eq_some_iff.1 hpassword, base64_eq_some_iff.1 hkey,
        base64_eq_some_iff.1 hkey'⟩
  · rintro ⟨hname, hpassword, hpublicKey, hgroupKey⟩
    rw [← value_eq_some_iff] at hname hpassword
    rw [← base64_eq_some_iff] at hpublicKey hgroupKey
    rw [admin, hname, hpassword, hpublicKey, hgroupKey]
    rfl

/-- What the settings of a bootstrap are read from. -/
structure DescribesBootstrap (vars : Variables) (b : BootstrapSettings) : Prop where
  publicKey : vars.GivesBytes "SUPER_GROUP_PUBLIC_KEY" b.superPublicKey
  sealedKey : vars.GivesBytes "SUPER_GROUP_SEALED_KEY" b.superSealedKey
  noAdmin : b.admin = none ↔ ¬ vars.IsSet "BOOTSTRAP_ADMIN_NAME"
  admin : ∀ a ∈ b.admin, vars.DescribesAdmin a

theorem bootstrap_eq_none_iff :
    vars.bootstrap = .ok none ↔ ¬ vars.IsSet "SUPER_GROUP_PUBLIC_KEY" := by
  rw [← base64_eq_none_iff, bootstrap]
  constructor
  · intro h
    obtain ⟨key, hkey, h⟩ := of_bind_eq_ok h
    cases key with
    | none => exact hkey
    | some key =>
      obtain ⟨key', -, h⟩ := of_bind_eq_ok h
      obtain ⟨sealedKey, -, h⟩ := of_bind_eq_ok h
      obtain ⟨admin, -, h⟩ := of_bind_eq_ok h
      cases h
  · intro h
    rw [h]
    rfl

theorem bootstrap_eq_some_iff {b : BootstrapSettings} :
    vars.bootstrap = .ok (some b) ↔ vars.DescribesBootstrap b := by
  constructor
  · intro h
    obtain ⟨key, hkey, h⟩ := of_bind_eq_ok h
    cases key with
    | none => cases h
    | some key =>
      obtain ⟨key', hkey', h⟩ := of_bind_eq_ok h
      obtain ⟨sealedKey, hsealedKey, h⟩ := of_bind_eq_ok h
      obtain ⟨admin, hadmin, h⟩ := of_bind_eq_ok h
      cases h
      rw [needed_eq_ok_iff] at hsealedKey
      subst hsealedKey
      refine ⟨base64_eq_some_iff.1 hkey, base64_eq_some_iff.1 hkey', ?_, ?_⟩
      · rw [← admin_eq_none_iff, hadmin]
        simp
      · intro a ha
        rw [← admin_eq_some_iff, hadmin]
        exact congrArg Except.ok ha
  · rintro ⟨hpublicKey, hsealedKey, hnone, hadmin⟩
    rw [← base64_eq_some_iff] at hpublicKey hsealedKey
    have hadmin : vars.admin = .ok b.admin := by
      cases heq : b.admin with
      | none => exact admin_eq_none_iff.2 (hnone.1 heq)
      | some a => exact admin_eq_some_iff.2 (hadmin a heq)
    rw [bootstrap, hpublicKey, hsealedKey, hadmin]
    rfl

/-! ### Numbers -/

/-- A duration in milliseconds that a variable gives in seconds, if it gives more than none, and
that is standard otherwise. -/
structure DescribesDuration (vars : Variables) (name : String) (standard duration : Nat) : Prop where
  given : ∀ n, vars.GivesNumber name UInt64.size n → 0 < n → duration = 1000 * n
  standard : (¬ ∃ n, vars.GivesNumber name UInt64.size n ∧ 0 < n) → duration = standard

theorem describes_duration (name : String) (standard : Nat) :
    vars.DescribesDuration name standard (vars.duration name standard) := by
  constructor
  · intro n hn hpos
    obtain ⟨seconds, rfl⟩ : ∃ seconds, n = seconds + 1 := ⟨n - 1, by omega⟩
    rw [duration, bind_ofTrimmed?_eq_some_iff.2 hn]
  · intro hnone
    rw [duration]
    split
    · next seconds hseconds =>
      exact absurd ⟨_, bind_ofTrimmed?_eq_some_iff.1 hseconds, Nat.succ_pos _⟩ hnone
    · rfl

theorem DescribesDuration.pos {name : String} {standard duration : Nat}
    (h : vars.DescribesDuration name standard duration) (hpos : 0 < standard) : 0 < duration := by
  by_cases hgiven : ∃ n, vars.GivesNumber name UInt64.size n ∧ 0 < n
  · obtain ⟨n, hn, hlt⟩ := hgiven
    rw [h.given n hn hlt]
    omega
  · rw [h.standard hgiven]
    exact hpos

/-- The port that a variable gives, or the standard one. -/
structure DescribesPort (vars : Variables) (port : Nat) : Prop where
  given : ∀ n, vars.GivesNumber "PORT" UInt16.size n → port = n
  standard : (¬ ∃ n, vars.GivesNumber "PORT" UInt16.size n) → port = 8080

theorem describes_port : vars.DescribesPort vars.port := by
  constructor
  · intro n hn
    rw [port, bind_ofTrimmed?_eq_some_iff.2 hn, Option.getD_some]
  · intro hnone
    rw [port]
    cases hvalue : (vars.value "PORT").bind (Decimal.ofTrimmed? UInt16.size) with
    | none => rfl
    | some n => exact absurd ⟨n, bind_ofTrimmed?_eq_some_iff.1 hvalue⟩ hnone

end

/-! ### Blanks around numbers and base64 -/

/-- The variables that are trimmed before they are read. -/
def trimmed : List String :=
  ["PORT", "SESSION_IDLE_TIMEOUT_SECS", "SESSION_SWEEP_INTERVAL_SECS",
    "CREDENTIAL_LOOKUP_TIMEOUT_SECS", "SUPER_GROUP_PUBLIC_KEY", "SUPER_GROUP_SEALED_KEY",
    "BOOTSTRAP_ADMIN_PUBLIC_KEY", "BOOTSTRAP_ADMIN_GROUP_KEY"]

/-- Some variables with blanks put around numbers and base64. -/
def Respaced (vars vars' : Variables) : Prop :=
  ∀ name, vars' name = vars name ∨ name ∈ trimmed ∧ ∃ before text after, IsBlankText before ∧
    IsBlankText after ∧ vars name = some text ∧ vars' name = some (before ++ text ++ after)

namespace Respaced

variable {vars vars' : Variables}

theorem value_eq (h : Respaced vars vars') {name : String} (hname : name ∉ trimmed) :
    vars'.value name = vars.value name := by
  rcases h name with heq | ⟨hmem, -⟩
  · rw [value, value, heq]
  · exact absurd hmem hname

/-- A trimmed value stays the same, and blanks around a blank value leave it blank. -/
theorem map_trim_value (h : Respaced vars vars') (name : String) :
    (vars'.value name).map Text.trim = (vars.value name).map Text.trim := by
  rcases h name with heq | ⟨-, before, text, after, hbefore, hafter, htext, hpadded⟩
  · rw [value, value, heq]
  · have htrim := Text.trim_pad hbefore hafter text
    rw [value, value, htext, hpadded, Option.filter_some, Option.filter_some, htrim]
    split
    · rw [Option.map_some, Option.map_some, htrim]
    · rfl

theorem base64_eq (h : Respaced vars vars') (name : String) :
    vars'.base64 name = vars.base64 name := by
  have htrim := h.map_trim_value name
  rw [base64, base64]
  cases hvalue : vars.value name with
  | none =>
    rw [hvalue, Option.map_none, Option.map_eq_none_iff] at htrim
    rw [htrim]
  | some text =>
    rw [hvalue, Option.map_some, Option.map_eq_some_iff] at htrim
    obtain ⟨text', hvalue', htext⟩ := htrim
    simp only [hvalue', htext]

theorem number_eq (h : Respaced vars vars') (name : String) (bound : Nat) :
    (vars'.value name).bind (Decimal.ofTrimmed? bound) =
      (vars.value name).bind (Decimal.ofTrimmed? bound) := by
  have hnumber : ∀ vars : Variables, (vars.value name).bind (Decimal.ofTrimmed? bound) =
      ((vars.value name).map Text.trim).bind fun text => Decimal.ofChars? bound text.toList := by
    intro vars
    rw [Option.bind_map]
    congr 1
    funext text
    rw [Decimal.ofTrimmed?, Function.comp_apply, Text.trim, String.toList_ofList]
  rw [hnumber, hnumber, h.map_trim_value]

theorem load_eq (h : Respaced vars vars') : Config.load vars' = Config.load vars := by
  have hvalue : ∀ name, name ∉ trimmed → vars'.value name = vars.value name :=
    fun name => h.value_eq
  have hduration : ∀ name standard, vars'.duration name standard = vars.duration name standard := by
    intro name standard
    rw [duration, duration, h.number_eq]
  have hsession : vars'.session = vars.session := by
    rw [session, session, hduration, hduration, hduration]
  have hport : vars'.port = vars.port := by
    rw [port, port, h.number_eq]
  have htls : vars'.tls = vars.tls := by
    rw [tls, tls, hvalue _ (by decide), hvalue _ (by decide)]
  have hadmin : vars'.admin = vars.admin := by
    rw [admin, admin, hvalue "BOOTSTRAP_ADMIN_NAME" (by decide),
      hvalue "BOOTSTRAP_ADMIN_PASSWORD" (by decide), h.base64_eq, h.base64_eq]
  have hbootstrap : vars'.bootstrap = vars.bootstrap := by
    rw [bootstrap, bootstrap, h.base64_eq, h.base64_eq, hadmin]
  rw [Config.load, Config.load, hsession, hport, htls, hbootstrap,
    hvalue "DATA_DIR" (by decide), hvalue "HOST" (by decide)]

end Respaced

end Variables

/-! ### Configurations -/

namespace Config

open Variables

/-- What a configuration is read from. -/
structure Describes (vars : Variables) (c : Config) : Prop where
  idleTimeout : vars.DescribesDuration "SESSION_IDLE_TIMEOUT_SECS" 300000 c.session.idleTimeout
  sweepInterval :
    vars.DescribesDuration "SESSION_SWEEP_INTERVAL_SECS" 60000 c.session.sweepInterval
  lookupTimeout :
    vars.DescribesDuration "CREDENTIAL_LOOKUP_TIMEOUT_SECS" 5000 c.session.lookupTimeout
  /-- No duration is zero. -/
  durations : 0 < c.session.idleTimeout ∧ 0 < c.session.sweepInterval ∧ 0 < c.session.lookupTimeout
  port : vars.DescribesPort c.port
  /-- There is a certificate exactly if both paths are set. -/
  tls : c.tls ≠ none ↔ vars.IsSet "TLS_CERT_PATH" ∧ vars.IsSet "TLS_KEY_PATH"
  tlsPaths : ∀ paths ∈ c.tls, vars.GivesText "TLS_CERT_PATH" paths.cert ∧
    vars.GivesText "TLS_KEY_PATH" paths.key
  /-- There is a bootstrap exactly if the public key of the supergroup is set. -/
  bootstrap : c.bootstrap ≠ none ↔ vars.IsSet "SUPER_GROUP_PUBLIC_KEY"
  /-- There is an administrator exactly if its name is set. -/
  admin : ∀ b ∈ c.bootstrap, b.admin ≠ none ↔ vars.IsSet "BOOTSTRAP_ADMIN_NAME"
  superKeys : ∀ b ∈ c.bootstrap, vars.GivesBytes "SUPER_GROUP_PUBLIC_KEY" b.superPublicKey ∧
    vars.GivesBytes "SUPER_GROUP_SEALED_KEY" b.superSealedKey
  adminSettings : ∀ b ∈ c.bootstrap, ∀ a ∈ b.admin, vars.DescribesAdmin a
  /-- No byte string of a bootstrap is empty. -/
  nonempty : ∀ b ∈ c.bootstrap, b.superPublicKey ≠ [] ∧ b.superSealedKey ≠ [] ∧
    ∀ a ∈ b.admin, a.publicKey ≠ [] ∧ a.groupKey ≠ []

section

variable {vars : Variables} {c : Config}

theorem exists_tls_iff :
    (∃ tls, vars.tls = .ok tls) ↔ (vars.IsSet "TLS_CERT_PATH" ↔ vars.IsSet "TLS_KEY_PATH") := by
  constructor
  · rintro ⟨tls | paths, h⟩
    · rw [tls_eq_none_iff] at h
      exact iff_of_false h.1 h.2
    · rw [tls_eq_some_iff] at h
      exact iff_of_true ⟨_, h.1⟩ ⟨_, h.2⟩
  · intro hboth
    by_cases hcert : vars.IsSet "TLS_CERT_PATH"
    · obtain ⟨key, hkey⟩ := hboth.1 hcert
      obtain ⟨cert, hcert⟩ := hcert
      exact ⟨some ⟨cert, key⟩, tls_eq_some_iff.2 ⟨hcert, hkey⟩⟩
    · exact ⟨none, tls_eq_none_iff.2 ⟨hcert, fun hkey => hcert (hboth.2 hkey)⟩⟩

theorem exists_bootstrap_iff : (∃ bootstrap, vars.bootstrap = .ok bootstrap) ↔
    (vars.IsSet "SUPER_GROUP_PUBLIC_KEY" → vars.HasBootstrap) := by
  constructor
  · rintro ⟨bootstrap | b, h⟩ hset
    · exact absurd hset (bootstrap_eq_none_iff.1 h)
    · obtain ⟨hpublicKey, hsealedKey, hnone, hadmin⟩ := bootstrap_eq_some_iff.1 h
      refine ⟨⟨_, hpublicKey⟩, ⟨_, hsealedKey⟩, ?_⟩
      intro hname
      cases heq : b.admin with
      | none => exact absurd hname (hnone.1 heq)
      | some a =>
        have ha := hadmin a heq
        exact ⟨⟨_, ha.password⟩, ⟨_, ha.publicKey⟩, ⟨_, ha.groupKey⟩⟩
  · intro hall
    by_cases hset : vars.IsSet "SUPER_GROUP_PUBLIC_KEY"
    · obtain ⟨⟨publicKey, hpublicKey⟩, ⟨sealedKey, hsealedKey⟩, hadmin⟩ := hall hset
      by_cases hname : vars.IsSet "BOOTSTRAP_ADMIN_NAME"
      · obtain ⟨⟨password, hpassword⟩, ⟨adminKey, hadminKey⟩, ⟨groupKey, hgroupKey⟩⟩ := hadmin hname
        obtain ⟨name, hname⟩ := hname
        refine ⟨some ⟨publicKey, sealedKey, some ⟨name, password, adminKey, groupKey⟩⟩,
          bootstrap_eq_some_iff.2 ⟨hpublicKey, hsealedKey, ?_, ?_⟩⟩
        · exact iff_of_false nofun fun hunset => hunset ⟨name, hname⟩
        · rintro a ⟨⟩
          exact ⟨hname, hpassword, hadminKey, hgroupKey⟩
      · exact ⟨some ⟨publicKey, sealedKey, none⟩,
          bootstrap_eq_some_iff.2 ⟨hpublicKey, hsealedKey, iff_of_true rfl hname, nofun⟩⟩
    · exact ⟨none, bootstrap_eq_none_iff.2 hset⟩

theorem exists_load_iff : (∃ c, load vars = .ok c) ↔ vars.Coherent := by
  constructor
  · rintro ⟨c, h⟩
    obtain ⟨tls, htls, h⟩ := of_bind_eq_ok h
    obtain ⟨bootstrap, hbootstrap, -⟩ := of_bind_eq_ok h
    exact ⟨exists_tls_iff.1 ⟨tls, htls⟩, exists_bootstrap_iff.1 ⟨bootstrap, hbootstrap⟩⟩
  · intro h
    obtain ⟨tls, htls⟩ := exists_tls_iff.2 h.tls
    obtain ⟨bootstrap, hbootstrap⟩ := exists_bootstrap_iff.2 h.bootstrap
    rw [load, htls, hbootstrap]
    exact ⟨_, rfl⟩

theorem describes_of_load (h : load vars = .ok c) : Describes vars c := by
  obtain ⟨tls, htls, h⟩ := of_bind_eq_ok h
  obtain ⟨bootstrap, hbootstrap, h⟩ := of_bind_eq_ok h
  cases h
  have hidle := vars.describes_duration "SESSION_IDLE_TIMEOUT_SECS" 300000
  have hsweep := vars.describes_duration "SESSION_SWEEP_INTERVAL_SECS" 60000
  have hlookup := vars.describes_duration "CREDENTIAL_LOOKUP_TIMEOUT_SECS" 5000
  have hpaths : ∀ paths ∈ tls, vars.GivesText "TLS_CERT_PATH" paths.cert ∧
      vars.GivesText "TLS_KEY_PATH" paths.key := by
    rintro paths ⟨⟩
    exact tls_eq_some_iff.1 htls
  have hsettings : ∀ b ∈ bootstrap, vars.DescribesBootstrap b := by
    rintro b ⟨⟩
    exact bootstrap_eq_some_iff.1 hbootstrap
  refine ⟨hidle, hsweep, hlookup, ⟨hidle.pos (by decide), hsweep.pos (by decide),
    hlookup.pos (by decide)⟩, describes_port, ?_, hpaths, ?_, ?_, ?_, ?_, ?_⟩
  · show tls ≠ none ↔ _
    cases tls with
    | none => exact iff_of_false (fun hne => hne rfl) fun hset => (tls_eq_none_iff.1 htls).1 hset.1
    | some paths =>
      obtain ⟨hcert, hkey⟩ := hpaths paths rfl
      exact iff_of_true nofun ⟨⟨_, hcert⟩, ⟨_, hkey⟩⟩
  · show bootstrap ≠ none ↔ _
    cases bootstrap with
    | none => exact iff_of_false (fun hne => hne rfl) (bootstrap_eq_none_iff.1 hbootstrap)
    | some b =>
      obtain ⟨text, htext, -⟩ := (hsettings b rfl).publicKey
      exact iff_of_true nofun ⟨text, htext⟩
  · intro b hb
    rw [ne_eq, (hsettings b hb).noAdmin, not_not]
  · intro b hb
    exact ⟨(hsettings b hb).publicKey, (hsettings b hb).sealedKey⟩
  · intro b hb
    exact (hsettings b hb).admin
  · intro b hb
    refine ⟨(hsettings b hb).publicKey.ne_nil, (hsettings b hb).sealedKey.ne_nil, ?_⟩
    intro a ha
    have hadmin := (hsettings b hb).admin a ha
    exact ⟨hadmin.publicKey.ne_nil, hadmin.groupKey.ne_nil⟩

end

/-- **Variables make a configuration exactly if they are coherent**: the paths of the certificate
and of its key are both set or both unset, and if the public key of the supergroup is set, it and
the sealed key are base64, and so is what belongs to the administrator if its name is set.  The
configuration is then what the variables say, with defaults for numbers that cannot be read, and
blanks around a number or around base64 make no difference, also to a refusal. -/
theorem load_exactly_coherent (vars : Variables) :
    ((∃ c, load vars = .ok c) ↔ vars.Coherent) ∧
      (∀ c, load vars = .ok c → Describes vars c) ∧
      ∀ vars', Respaced vars vars' → load vars' = load vars :=
  ⟨exists_load_iff, fun _ => describes_of_load, fun _ => Respaced.load_eq⟩

/-- Variables with blanks in many places, a plus sign, and a duration of zero. -/
def sampleVariables : Variables := fun name =>
  [("PORT", "\t+08443 "), ("SESSION_IDLE_TIMEOUT_SECS", "0"), ("SESSION_SWEEP_INTERVAL_SECS", "15"),
    ("TLS_CERT_PATH", " "), ("SUPER_GROUP_PUBLIC_KEY", " AQID\n"),
    ("SUPER_GROUP_SEALED_KEY", "BAUG"), ("BOOTSTRAP_ADMIN_NAME", "root"),
    ("BOOTSTRAP_ADMIN_PASSWORD", "hunter2"), ("BOOTSTRAP_ADMIN_PUBLIC_KEY", "BwgJ"),
    ("BOOTSTRAP_ADMIN_GROUP_KEY", "CgsM")].lookup name

theorem load_exactly_coherent_sampleVariables :
    ∃ c, load sampleVariables = .ok c ∧ sampleVariables.Coherent ∧ Describes sampleVariables c ∧
      c.port = 8443 ∧ c.session.idleTimeout = 300000 ∧ c.session.sweepInterval = 15000 ∧
      c.tls = none := by
  have hok : (load sampleVariables).isOk = true := by decide +kernel
  obtain ⟨hcoherent, hdescribes, -⟩ := load_exactly_coherent sampleVariables
  cases hload : load sampleVariables with
  | error e =>
    rw [hload] at hok
    cases hok
  | ok c =>
    have hread : (load sampleVariables).toOption.map (fun c => (c.port, c.session, c.tls)) =
        some (8443, ⟨300000, 15000, 5000⟩, none) := by decide +kernel
    rw [hload] at hread
    simp only [Except.toOption, Option.map_some, Option.some_inj, Prod.mk.injEq] at hread
    obtain ⟨hport, hsession, htls⟩ := hread
    exact ⟨c, rfl, hcoherent.1 ⟨c, hload⟩, hdescribes c hload, hport, congrArg (·.idleTimeout)
      hsession, congrArg (·.sweepInterval) hsession, htls⟩

end Config

end Strongroom
