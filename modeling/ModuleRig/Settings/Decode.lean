import ModuleRig.Settings.Basic
import ModuleRig.Toml.Decode

/-!
# Settings from a file's text

Every section and nearly every field may be left out. A section or field that does not exist is
refused, and so is a value of another type.
-/

namespace ModuleRig.Settings

open Toml

def paths? : Value → Option (List Path) :=
  Value.list? Value.path?

def project? (v : Value) : Option ProjectSettings := do
  let fields ← v.section? ["group", "version", "classes"]
  let d := Settings.default.project
  return {
    group := ← fieldOr? fields "group" Value.text? d.group
    version := ← fieldOr? fields "version" Value.text? d.version
    classes := ← fieldOr? fields "classes" paths? d.classes }

def mainModule? (v : Value) : Option String := do
  let fields ← v.section? ["main_module"]
  fieldOr? fields "main_module" Value.text? Settings.default.mainModule

def dependencySection? (v : Value) : Option DependencySettings := do
  let fields ← v.section? ["coordinate", "changing"]
  let d := Settings.default.dependency
  return {
    coordinate := ← fieldOr? fields "coordinate" Value.text? d.coordinate
    changing := ← fieldOr? fields "changing" Value.boolean? d.changing }

/-- A repository has no defaults. -/
def repository? (v : Value) : Option RepositorySettings := do
  let fields ← v.section? ["name", "url"]
  return {
    name := ← requiredField? fields "name" Value.text?
    url := ← requiredField? fields "url" Value.text? }

def cache? (v : Value) : Option CacheSettings := do
  let fields ← v.section? ["dir", "changing_modules_for_secs", "dynamic_versions_for_secs"]
  let d := Settings.default.cache
  let seconds := Value.natural? Text.maxWord64
  return {
    dir := ← fieldOr? fields "dir" Value.path? d.dir
    changingWindow := ← fieldOr? fields "changing_modules_for_secs" seconds d.changingWindow
    dynamicWindow := ← fieldOr? fields "dynamic_versions_for_secs" seconds d.dynamicWindow }

def java? (v : Value) : Option JavaSettings := do
  let fields ← v.section? ["home", "language_version", "check_version"]
  let d := Settings.default.java
  let version := Value.natural? Text.maxWord32
  return {
    home := ← fieldOr? fields "home" (fun v => v.path?.map some) d.home
    languageVersion := ← fieldOr? fields "language_version" version d.languageVersion
    checkVersion := ← fieldOr? fields "check_version" Value.boolean? d.checkVersion }

def execution? (v : Value) : Option ExecutionSettings := do
  let fields ← v.section? ["enable_native_access", "jvm_args"]
  let d := Settings.default.execution
  let texts := Value.list? Value.text?
  return {
    enableNativeAccess :=
      ← fieldOr? fields "enable_native_access" Value.boolean? d.enableNativeAccess
    jvmArgs := ← fieldOr? fields "jvm_args" texts d.jvmArgs }

def test? (v : Value) : Option TestSettings := do
  let fields ← v.section? ["launcher", "classes"]
  let d := Settings.default.test
  return {
    launcher := ← fieldOr? fields "launcher" Value.text? d.launcher
    classes := ← fieldOr? fields "classes" paths? d.classes }

def sectionNames : List String :=
  ["project", "application", "dependency", "repository", "cache", "java", "execution", "test"]

def ofFields? (fields : Fields) : Option Settings := do
  let fields ← knownFields? sectionNames fields
  let d := Settings.default
  return {
    project := ← fieldOr? fields "project" project? d.project
    mainModule := ← fieldOr? fields "application" mainModule? d.mainModule
    dependency := ← fieldOr? fields "dependency" dependencySection? d.dependency
    repositories := ← fieldOr? fields "repository" (Value.list? repository?) d.repositories
    cache := ← fieldOr? fields "cache" cache? d.cache
    java := ← fieldOr? fields "java" java? d.java
    execution := ← fieldOr? fields "execution" execution? d.execution
    test := ← fieldOr? fields "test" test? d.test }

def read? (text : String) : Option Settings :=
  (Toml.read? text).bind ofFields?

end ModuleRig.Settings
