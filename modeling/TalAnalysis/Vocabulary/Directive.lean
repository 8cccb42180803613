import TalAnalysis.Vocabulary.Dialect
import TalAnalysis.Vocabulary.Lookup

namespace TalAnalysis

inductive Directive
  | list | noList | page | lines | columns | code | noCode | icode | noIcode | innerList
  | noInnerList | map | noMap | gmap | noGmap | lmap | noLmap | fmap | noFmap | crossRef
  | noCrossRef | defExpand | noDefExpand | suppress | noSuppress | warn | noWarn | source
  | section_ | if_ | ifNot | endIf | setTog | resetTog | defineTog | assertion | target | env
  | cpu | heap | extendStack | largeStack | dataPages | symbolPages | symbols | noSymbols
  | inspect | noInspect | saveAbend | noSaveAbend | check | noCheck | optimize | compact
  | noCompact | fixup | noFixup | abort | noAbort | errors | errorFile | syntax_ | runnable
  | library | search | saveGlobals | useGlobals | beginCompilation | round | int32Index
  | noInt32Index | sql | sqlMem | subtype | highPin | highRequesters | pep | rp | relocate
  | callShared | printSym | noPrintSym | absList | noAbsList | dumpcons
deriving DecidableEq, Repr, Inhabited

inductive DirectiveForm
  | simple | complex
deriving DecidableEq, Repr, Inhabited

namespace Directive

structure Details where
  spelling : String
  form : DirectiveForm
  dialect : Dialect
  description : String

def details : Directive → Details
  | .list => ⟨"LIST", .simple, .tal, "Enable the compiler listing."⟩
  | .noList => ⟨"NOLIST", .simple, .tal, "Suppress the compiler listing."⟩
  | .page => ⟨"PAGE", .complex, .tal, "Start a new listing page, optionally with a heading."⟩
  | .lines => ⟨"LINES", .complex, .tal, "Set the number of lines per listing page."⟩
  | .columns => ⟨"COLUMNS", .complex, .tal, "Set the rightmost source column the compiler reads."⟩
  | .code => ⟨"CODE", .simple, .tal, "List instruction codes."⟩
  | .noCode => ⟨"NOCODE", .simple, .tal, "Do not list instruction codes."⟩
  | .icode => ⟨"ICODE", .simple, .tal, "List instruction mnemonics."⟩
  | .noIcode => ⟨"NOICODE", .simple, .tal, "Do not list instruction mnemonics."⟩
  | .innerList => ⟨"INNERLIST", .simple, .tal, "List mnemonics after each statement."⟩
  | .noInnerList => ⟨"NOINNERLIST", .simple, .tal, "Stop listing mnemonics after each statement."⟩
  | .map => ⟨"MAP", .simple, .tal, "List identifier maps."⟩
  | .noMap => ⟨"NOMAP", .simple, .tal, "Do not list identifier maps."⟩
  | .gmap => ⟨"GMAP", .simple, .tal, "List the global map."⟩
  | .noGmap => ⟨"NOGMAP", .simple, .tal, "Do not list the global map."⟩
  | .lmap => ⟨"LMAP", .simple, .tal, "List load maps."⟩
  | .noLmap => ⟨"NOLMAP", .simple, .tal, "Do not list load maps."⟩
  | .fmap => ⟨"FMAP", .simple, .tal, "List the file map."⟩
  | .noFmap => ⟨"NOFMAP", .simple, .tal, "Do not list the file map."⟩
  | .crossRef => ⟨"CROSSREF", .complex, .tal,
      "Collect cross-reference information for the listed classes."⟩
  | .noCrossRef => ⟨"NOCROSSREF", .complex, .tal, "Stop collecting cross-reference information."⟩
  | .defExpand => ⟨"DEFEXPAND", .simple, .tal, "List expanded DEFINE bodies."⟩
  | .noDefExpand => ⟨"NODEFEXPAND", .simple, .tal, "Do not list expanded DEFINE bodies."⟩
  | .suppress => ⟨"SUPPRESS", .simple, .tal, "Suppress all listing output except diagnostics."⟩
  | .noSuppress => ⟨"NOSUPPRESS", .simple, .tal, "Resume normal listing output."⟩
  | .warn => ⟨"WARN", .complex, .tal, "Enable warnings, optionally a single warning number."⟩
  | .noWarn => ⟨"NOWARN", .complex, .tal, "Suppress warnings, optionally a single warning number."⟩
  | .source => ⟨"SOURCE", .complex, .tal,
      "Read source text, optionally only the listed sections, from a file."⟩
  | .section_ => ⟨"SECTION", .complex, .tal, "Name the following source text as a section."⟩
  | .if_ => ⟨"IF", .complex, .tal, "Compile the following text if the toggle is on."⟩
  | .ifNot => ⟨"IFNOT", .complex, .tal, "Compile the following text if the toggle is off."⟩
  | .endIf => ⟨"ENDIF", .complex, .tal, "End a conditional compilation region."⟩
  | .setTog => ⟨"SETTOG", .complex, .tal, "Turn toggles on."⟩
  | .resetTog => ⟨"RESETTOG", .complex, .tal, "Turn toggles off."⟩
  | .defineTog => ⟨"DEFINETOG", .complex, .tal, "Declare toggles without changing their state."⟩
  | .assertion => ⟨"ASSERTION", .complex, .tal,
      "Set the assertion level and the procedure called on failure."⟩
  | .target => ⟨"TARGET", .complex, .tal, "Select the target system for the object file."⟩
  | .env => ⟨"ENV", .complex, .tal, "Select the run-time environment (COMMON, OLD, NEUTRAL)."⟩
  | .cpu => ⟨"CPU", .complex, .tal, "Select the processor the object file runs on."⟩
  | .heap => ⟨"HEAP", .complex, .tal, "Set the heap size in pages."⟩
  | .extendStack => ⟨"EXTENDSTACK", .complex, .tal, "Extend the data stack by a number of pages."⟩
  | .largeStack => ⟨"LARGESTACK", .complex, .tal, "Set the size of the extended stack."⟩
  | .dataPages => ⟨"DATAPAGES", .complex, .tal, "Set the size of the data area in pages."⟩
  | .symbolPages => ⟨"SYMBOLPAGES", .complex, .tal, "Set the size of the compiler symbol table."⟩
  | .symbols => ⟨"SYMBOLS", .simple, .tal, "Save symbols for the symbolic debugger."⟩
  | .noSymbols => ⟨"NOSYMBOLS", .simple, .tal, "Do not save debugger symbols."⟩
  | .inspect => ⟨"INSPECT", .simple, .tal, "Select the symbolic debugger."⟩
  | .noInspect => ⟨"NOINSPECT", .simple, .tal, "Select the low-level debugger."⟩
  | .saveAbend => ⟨"SAVEABEND", .simple, .tal, "Save a process dump on abnormal termination."⟩
  | .noSaveAbend => ⟨"NOSAVEABEND", .simple, .tal, "Do not save a process dump."⟩
  | .check => ⟨"CHECK", .simple, .tal, "Generate range checks."⟩
  | .noCheck => ⟨"NOCHECK", .simple, .tal, "Do not generate range checks."⟩
  | .optimize => ⟨"OPTIMIZE", .complex, .tal, "Set the optimization level."⟩
  | .compact => ⟨"COMPACT", .simple, .tal, "Move procedures to fill gaps in the code area."⟩
  | .noCompact => ⟨"NOCOMPACT", .simple, .tal, "Do not compact the code area."⟩
  | .fixup => ⟨"FIXUP", .simple, .tal, "Run the fixup pass."⟩
  | .noFixup => ⟨"NOFIXUP", .simple, .tal, "Skip the fixup pass."⟩
  | .abort => ⟨"ABORT", .simple, .tal, "Abort compilation when a source file cannot be opened."⟩
  | .noAbort => ⟨"NOABORT", .simple, .tal, "Prompt instead of aborting on a missing source file."⟩
  | .errors => ⟨"ERRORS", .complex, .tal, "Stop after the given number of errors."⟩
  | .errorFile => ⟨"ERRORFILE", .complex, .tal, "Write diagnostics to the named file."⟩
  | .syntax_ => ⟨"SYNTAX", .simple, .tal, "Check syntax only; produce no object file."⟩
  | .runnable => ⟨"RUNNABLE", .simple, .tal, "Produce a runnable object file."⟩
  | .library => ⟨"LIBRARY", .complex, .tal, "Name the user run-time library."⟩
  | .search => ⟨"SEARCH", .complex, .tal, "List object files searched for external references."⟩
  | .saveGlobals => ⟨"SAVEGLOBALS", .complex, .tal, "Save global declarations to a file."⟩
  | .useGlobals => ⟨"USEGLOBALS", .complex, .tal, "Read global declarations saved by SAVEGLOBALS."⟩
  | .beginCompilation => ⟨"BEGINCOMPILATION", .simple, .tal,
      "Mark where compilation begins after USEGLOBALS."⟩
  | .round => ⟨"ROUND", .simple, .tal, "Round FIXED results instead of truncating."⟩
  | .int32Index => ⟨"INT32INDEX", .simple, .pTal, "Generate 32-bit indexes."⟩
  | .noInt32Index => ⟨"NOINT32INDEX", .simple, .pTal, "Generate 16-bit indexes."⟩
  | .sql => ⟨"SQL", .complex, .tal, "Enable embedded SQL, optionally with options."⟩
  | .sqlMem => ⟨"SQLMEM", .complex, .tal, "Select where SQL data structures are allocated."⟩
  | .subtype => ⟨"SUBTYPE", .complex, .tal, "Set the process subtype."⟩
  | .highPin => ⟨"HIGHPIN", .simple, .tal, "Run the process at a high PIN."⟩
  | .highRequesters => ⟨"HIGHREQUESTERS", .simple, .tal, "Accept openers with high PINs."⟩
  | .pep => ⟨"PEP", .complex, .tal, "Set the size of the procedure entry-point table."⟩
  | .rp => ⟨"RP", .complex, .tal, "Set the register stack pointer value."⟩
  | .relocate => ⟨"RELOCATE", .simple, .tal, "Warn about non-relocatable global data."⟩
  | .callShared => ⟨"CALL_SHARED", .simple, .pTal, "Generate shared code."⟩
  | .printSym => ⟨"PRINTSYM", .simple, .tal, "List symbols."⟩
  | .noPrintSym => ⟨"NOPRINTSYM", .simple, .tal, "Do not list symbols."⟩
  | .absList => ⟨"ABSLIST", .simple, .tal, "List code addresses relative to the code area."⟩
  | .noAbsList => ⟨"NOABSLIST", .simple, .tal, "List code addresses relative to each procedure."⟩
  | .dumpcons => ⟨"DUMPCONS", .simple, .tal, "Flush the constant pool after the current procedure."⟩

def spelling (d : Directive) : String := d.details.spelling

def form (d : Directive) : DirectiveForm := d.details.form

def dialect (d : Directive) : Dialect := d.details.dialect

def description (d : Directive) : String := d.details.description

def all : List Directive :=
  [.list, .noList, .page, .lines, .columns, .code, .noCode, .icode, .noIcode, .innerList,
    .noInnerList, .map, .noMap, .gmap, .noGmap, .lmap, .noLmap, .fmap, .noFmap, .crossRef,
    .noCrossRef, .defExpand, .noDefExpand, .suppress, .noSuppress, .warn, .noWarn, .source,
    .section_, .if_, .ifNot, .endIf, .setTog, .resetTog, .defineTog, .assertion, .target, .env,
    .cpu, .heap, .extendStack, .largeStack, .dataPages, .symbolPages, .symbols, .noSymbols,
    .inspect, .noInspect, .saveAbend, .noSaveAbend, .check, .noCheck, .optimize, .compact,
    .noCompact, .fixup, .noFixup, .abort, .noAbort, .errors, .errorFile, .syntax_, .runnable,
    .library, .search, .saveGlobals, .useGlobals, .beginCompilation, .round, .int32Index,
    .noInt32Index, .sql, .sqlMem, .subtype, .highPin, .highRequesters, .pep, .rp, .relocate,
    .callShared, .printSym, .noPrintSym, .absList, .noAbsList, .dumpcons]

theorem mem_all (d : Directive) : d ∈ all := by cases d <;> decide

def ofSpelling? (word : String) : Option Directive := findWord? all spelling word

theorem distinct : DistinctWords all spelling := by decide +kernel

theorem ofSpelling?_eq_some_iff {word : String} {d : Directive} :
    ofSpelling? word = some d ↔ sameWord word d.spelling = true := by
  simp [ofSpelling?, findWord?_eq_some_iff distinct, mem_all]

end Directive
end TalAnalysis
