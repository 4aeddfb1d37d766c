import DesignSystem.Component.Fragments.Basic
/-!
# Fragments of the tabs
-/

namespace DesignSystem.Fragments

/-- The fragments of the tabs. -/
def tabs : Fragments where
  styles := Text.lines [
    ".tabs \x7b",
    "  display: flex;",
    "  flex-direction: column;",
    "  gap: var(--ds-geometry-spacing-4);",
    "\x7d",
    "",
    ".list \x7b",
    "  display: flex;",
    "  gap: var(--ds-geometry-spacing-1);",
    "  border-bottom: var(--ds-geometry-border-width) solid var(--ds-color-border);",
    "\x7d",
    "",
    ".tab \x7b",
    "  margin-bottom: calc(-1 * var(--ds-geometry-border-width));",
    "  padding: var(--ds-geometry-spacing-2) var(--ds-geometry-spacing-4);",
    "  font-family: var(--ds-typography-variants-label-fontFamily);",
    "  font-size: var(--ds-typography-variants-label-fontSize);",
    "  font-weight: var(--ds-typography-variants-label-fontWeight);",
    "  line-height: var(--ds-typography-variants-label-lineHeight);",
    "  color: var(--ds-color-textMuted);",
    "  background: transparent;",
    "  border: none;",
    "  border-bottom: var(--ds-geometry-border-width-thick) solid transparent;",
    "  cursor: pointer;",
    "\x7d",
    "",
    ".tab:hover \x7b",
    "  color: var(--ds-color-text);",
    "\x7d",
    "",
    ".tab:focus-visible \x7b",
    "  outline: 2px solid var(--ds-color-focusRing);",
    "  outline-offset: 2px;",
    "\x7d",
    "",
    ".active \x7b",
    "  color: var(--ds-color-primary);",
    "  border-bottom-color: var(--ds-color-primary);",
    "\x7d",
    "",
    ".panel \x7b",
    "  font-family: var(--ds-typography-variants-body-fontFamily);",
    "  font-size: var(--ds-typography-variants-body-fontSize);",
    "  line-height: var(--ds-typography-variants-body-lineHeight);",
    "  color: var(--ds-color-text);",
    "\x7d"]
  element := Text.lines [
    "<div class=\"tabs\">",
    "  <div class=\"list\" role=\"tablist\">",
    "    $\x7bthis.tabs",
    "      .map(",
    "        (tab) =>",
    "          `<button class=\"tab $\x7btab.id === this.current ? 'active' : ''\x7d\" type=\"button\" role=\"tab\" aria-selected=\"$\x7btab.id === this.current\x7d\" data-tab=\"$\x7bescapeHtml(tab.id)\x7d\">$\x7bescapeHtml(tab.label)\x7d</button>`,",
    "      )",
    "      .join('')\x7d",
    "  </div>",
    "  <div class=\"panel\" role=\"tabpanel\"><slot></slot></div>",
    "</div>"]
  reactView := Text.lines [
    "const [current, setCurrent] = useState(active || (tabs[0]?.id ?? ''));",
    "",
    "useEffect(() => \x7b",
    "  if (active) \x7b",
    "    setCurrent(active);",
    "  \x7d",
    "\x7d, [active]);",
    "",
    "return (",
    "  <div className=\x7bcx(styles.tabs, className)\x7d>",
    "    <div className=\x7bstyles.list\x7d role=\"tablist\">",
    "      \x7btabs.map((tab) => (",
    "        <button",
    "          key=\x7btab.id\x7d",
    "          className=\x7bcx(styles.tab, tab.id === current && styles.active)\x7d",
    "          type=\"button\"",
    "          role=\"tab\"",
    "          aria-selected=\x7btab.id === current\x7d",
    "          onClick=\x7b() => \x7b",
    "            setCurrent(tab.id);",
    "            onTabChange?.(tab.id);",
    "          \x7d\x7d",
    "        >",
    "          \x7btab.label\x7d",
    "        </button>",
    "      ))\x7d",
    "    </div>",
    "    <div className=\x7bstyles.panel\x7d role=\"tabpanel\">",
    "      \x7bchildren\x7d",
    "    </div>",
    "  </div>",
    ");"]
  angularView := Text.lines [
    "<div class=\"tabs\">",
    "  <div class=\"list\" role=\"tablist\">",
    "    <button",
    "      *ngFor=\"let tab of tabs\"",
    "      class=\"tab\"",
    "      [class.active]=\"tab.id === current\"",
    "      type=\"button\"",
    "      role=\"tab\"",
    "      [attr.aria-selected]=\"tab.id === current\"",
    "      (click)=\"select(tab.id)\"",
    "    >",
    "      \x7b\x7b tab.label \x7d\x7d",
    "    </button>",
    "  </div>",
    "  <div class=\"panel\" role=\"tabpanel\"><ng-content></ng-content></div>",
    "</div>"]
  elementMembers := some <| Text.lines [
    "private get current(): string \x7b",
    "  return this.active || (this.tabs[0]?.id ?? '');",
    "\x7d"]
  angularMembers := some <| Text.lines [
    "get current(): string \x7b",
    "  return this.active || (this.tabs[0]?.id ?? '');",
    "\x7d",
    "",
    "select(id: string): void \x7b",
    "  this.active = id;",
    "  this.tabChange.emit(id);",
    "\x7d"]

end DesignSystem.Fragments
