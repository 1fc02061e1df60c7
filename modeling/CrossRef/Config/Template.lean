namespace CrossRef.Config

def templateLines : List String :=
  ["# modcheck configuration",
   "#",
   "# Every field is optional. Remove a field to fall back to its default.",
   "",
   "# Directory names that are never scanned, wherever they appear.",
   "ignored_dirs:",
   "  - gfx",
   "  - tools",
   "  - resources",
   "  - docs",
   "  - map",
   "",
   "# Glob patterns on mod-relative paths to leave out.",
   "excluded_paths: []",
   "#  - \"history/**\"",
   "",
   "# Names containing any of these are template placeholders or computed",
   "# names and are never extracted.",
   "placeholder_markers: [\"@\", \"[\", \"\x7b\"]",
   "",
   "# Exact names never reported for any kind.",
   "ignored_names:",
   "  - kr_current_version",
   "",
   "# Per-kind substring filters.",
   "#   ignore:        names containing a fragment are never reported",
   "#   ignore_unset:  names containing a fragment are not reported as cleared",
   "#                  or missing (set elsewhere, e.g. by code the checker",
   "#                  cannot follow)",
   "#   ignore_unused: names containing a fragment are not reported as unused",
   "kinds:",
   "  country_flag:",
   "    ignore:",
   "      - _QMV_voted",
   "      - recognised_opponent_",
   "    ignore_unset:",
   "      - ire_got_guarantee",
   "      - ire_rejected_guarantee",
   "      - nfa_rebelled",
   "      - ire_alliance_refused",
   "      - nfa_previously_rebelled",
   "      - rom_deal",
   "      - rus_can_core",
   "      - sent_volunteers",
   "      - china_refused_alliance",
   "      - rival_government_",
   "      - _QMV",
   "      - trade_agreement",
   "      - mutual_investment_treaty_",
   "      - libya_casablanca_accords_signed_by_",
   "      - _EP_agenda",
   "      - initiated_blockade_",
   "    ignore_unused:",
   "      - saf_antagonise_",
   "      - default_puppet",
   "      - _EP_approval",
   "  global_flag:",
   "    ignore_unused:",
   "      - _QMV_result",
   "      - _QMV_voted",
   "  state_flag: \x7b\x7d",
   "  event_target:",
   "    ignore_unused:",
   "      - wca_usa_floyd_olson",
   "      - wca_usa_al_smith",
   "      - target_value",
   "  scripted_localisation: \x7b\x7d"]

def template : String := String.join (templateLines.map (· ++ "\n"))

end CrossRef.Config
