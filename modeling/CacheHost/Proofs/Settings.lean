import CacheHost.Proofs.Text.Strict
import CacheHost.Proofs.Toml.Section
import CacheHost.Proofs.Toml.Unique
import CacheHost.Settings

namespace CacheHost
open Toml

def ServerSettings.fields : List (SectionField ServerSettings) :=
  [⟨"port", .natural UInt16.size, fun s => .integer s.port.toNat⟩,
    ⟨"host", .text, fun s => .text s.host⟩]

def SourceSettings.fields : List (SectionField SourceSettings) :=
  [⟨"blkdev_conf", .text, fun s => .text s.blkdevConf⟩,
    ⟨"nbd_client", .text, fun s => .text s.nbdClient⟩,
    ⟨"sys_class_net", .text, fun s => .text s.sysClassNet⟩]

def CommandSettings.fields : List (SectionField CommandSettings) :=
  [⟨"df", .text, fun s => .text s.df⟩,
    ⟨"ps", .text, fun s => .text s.ps⟩,
    ⟨"worker_process", .text, fun s => .text s.workerProcess⟩,
    ⟨"timeout_ms", .natural UInt64.size, fun s => .integer s.timeoutMs.toNat⟩]

theorem ServerSettings.eq_of_value {s s' : ServerSettings}
    (h : ∀ f ∈ fields, f.value s = f.value s') : s = s' := by
  obtain ⟨port, host⟩ := s
  obtain ⟨port', host'⟩ := s'
  simp only [fields, List.forall_mem_cons] at h
  obtain ⟨hport, hhost, -⟩ := h
  obtain rfl := UInt16.toNat_inj.mp (Int.ofNat.inj (Toml.integer.inj hport))
  obtain rfl := Toml.text.inj hhost
  rfl

theorem SourceSettings.eq_of_value {s s' : SourceSettings}
    (h : ∀ f ∈ fields, f.value s = f.value s') : s = s' := by
  obtain ⟨conf, client, net⟩ := s
  obtain ⟨conf', client', net'⟩ := s'
  simp only [fields, List.forall_mem_cons] at h
  obtain ⟨hconf, hclient, hnet, -⟩ := h
  obtain rfl := Toml.text.inj hconf
  obtain rfl := Toml.text.inj hclient
  obtain rfl := Toml.text.inj hnet
  rfl

theorem CommandSettings.eq_of_value {s s' : CommandSettings}
    (h : ∀ f ∈ fields, f.value s = f.value s') : s = s' := by
  obtain ⟨df, ps, worker, timeout⟩ := s
  obtain ⟨df', ps', worker', timeout'⟩ := s'
  simp only [fields, List.forall_mem_cons] at h
  obtain ⟨hdf, hps, hworker, htimeout, -⟩ := h
  obtain rfl := Toml.text.inj hdf
  obtain rfl := Toml.text.inj hps
  obtain rfl := Toml.text.inj hworker
  obtain rfl := UInt64.toNat_inj.mp (Int.ofNat.inj (Toml.integer.inj htimeout))
  rfl

namespace Settings

variable {entries : Entries} {c c' : Settings} {name : String}

/-- The table of a section. A section that is not there gives no field anything. -/
def sectionTable (entries : Entries) (name : String) : Entries :=
  match entries.lookup name.toList with
  | some (.table _ es) => es
  | _ => []

structure Fits (entries : Entries) : Prop where
  server : Fitting ServerSettings.fields (sectionTable entries "server")
  sources : Fitting SourceSettings.fields (sectionTable entries "sources")
  commands : Fitting CommandSettings.fields (sectionTable entries "commands")

/-- The defaults, with each field that a document gives put in its place. -/
structure OverridesDefaults (entries : Entries) (c : Settings) : Prop where
  server : Overridden ServerSettings.fields (sectionTable entries "server") {} c.server
  sources : Overridden SourceSettings.fields (sectionTable entries "sources") {} c.sources
  commands : Overridden CommandSettings.fields (sectionTable entries "commands") {} c.commands

/-- There is but one way to override. -/
theorem OverridesDefaults.eq (h : OverridesDefaults entries c) (h' : OverridesDefaults entries c') :
    c = c' := by
  have server : c.server = c'.server :=
    ServerSettings.eq_of_value fun f hf => (h.server f hf).trans (h'.server f hf).symm
  have sources : c.sources = c'.sources :=
    SourceSettings.eq_of_value fun f hf => (h.sources f hf).trans (h'.sources f hf).symm
  have commands : c.commands = c'.commands :=
    CommandSettings.eq_of_value fun f hf => (h.commands f hf).trans (h'.commands f hf).symm
  obtain ⟨_, _, _⟩ := c
  obtain ⟨_, _, _⟩ := c'
  obtain rfl := server
  obtain rfl := sources
  obtain rfl := commands
  rfl

section Generic
variable {σ : Type} {setters : List (Setter σ)} {sectionFields : List (SectionField σ)}

end Generic

variable {files : FileReader} {isThere : Text → Bool} {named : Option Bytes} {path : Text}

/-- A name that is no text counts as none. -/
theorem load_of_forall_ne_encode {bs : Bytes} (h : ∀ path, bs ≠ Utf8.encode path) :
    load files isThere (some bs) = load files isThere none := by
  rw [load, Option.bind_some, Utf8.decode?_eq_none_iff.mpr h]
  rfl

end Settings
end CacheHost
