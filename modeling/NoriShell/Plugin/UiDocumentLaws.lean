import NoriShell.Collections.Expansion
import NoriShell.Plugin.UiDocument

namespace NoriShell.Plugin

open Collections Collections.Check

section

variable {nodes : List PluginUiNode} {levels : Nat} {state after : Visit}
  {nodeId : PluginUiNodeId} {ids : List PluginUiNodeId}

end

variable {document : PluginUiDocument}

def uiId (value : String) : PluginUiId :=
  if h : isUiId value = true then ⟨value, h⟩ else ⟨"x", by decide +kernel⟩

def shared : PluginUiDocument where
  schemaVersion := 1
  rootNodeId := uiId "root"
  nodes := [.stack (uiId "root") 0 (List.replicate 16 (uiId "row")),
    .stack (uiId "row") 0 (List.replicate 16 (uiId "cell")), .divider (uiId "cell")]

def single : PluginUiDocument where
  schemaVersion := 1
  rootNodeId := uiId "root"
  nodes := [.stack (uiId "root") 0 [uiId "cell"], .divider (uiId "cell")]

end NoriShell.Plugin
